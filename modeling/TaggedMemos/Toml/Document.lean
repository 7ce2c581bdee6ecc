import TaggedMemos.Toml.Quoted
import TaggedMemos.Toml.Table

/-!
# TOML Documents

A document is a sequence of lines: statements, comments and nothing. Arrays and tables in braces may
run over several lines and end in a comma.
-/

namespace TaggedMemos.Toml

/-- A line of a document. -/
inductive Statement where
  /-- A table is opened. -/
  | begin (path : List String)
  /-- One more table of an array of tables is opened. -/
  | beginNext (path : List String)
  /-- A key is set in the table opened last. -/
  | set (path : List String) (v : Value)
  deriving Repr

/-! ### Blanks -/

/-- A text without the spaces and tabs it begins with. -/
def skipBlanks (cs : List Char) : List Char :=
  cs.dropWhile fun c => c == ' ' || c == '\t'

/-- A text without the comment it begins with, if it begins with one. -/
def skipComment : List Char → List Char
  | '#' :: rest => rest.dropWhile isPlain
  | cs => cs

/-- A text without the blanks, comments and line endings it begins with. -/
def skipLines : Nat → List Char → List Char
  | 0, cs => cs
  | fuel + 1, cs =>
    let cs := skipComment (skipBlanks cs)
    match afterNewline? cs with
    | some rest => skipLines fuel rest
    | none => cs

/-! ### Keys -/

/-- Whether a character may stand in a key without quotes. -/
def isKeyChar (c : Char) : Bool :=
  c.isAlphanum || c == '-' || c == '_'

/-- A key without dots. -/
def simpleKey? (cs : List Char) : Option (String × List Char) :=
  match cs with
  | '"' :: rest => (basic? cs.length rest).map fun (key, rest) => (String.ofList key, rest)
  | '\'' :: rest => (literal? rest).map fun (key, rest) => (String.ofList key, rest)
  | _ =>
    match cs.span isKeyChar with
    | ([], _) => none
    | (key, rest) => some (String.ofList key, rest)

/-- A key: simple keys with dots between them, and blanks anywhere around them. -/
def key? : Nat → List Char → Option (List String × List Char)
  | 0, _ => none
  | fuel + 1, cs => do
    let (first, rest) ← simpleKey? (skipBlanks cs)
    match skipBlanks rest with
    | '.' :: rest =>
      let (others, rest) ← key? fuel rest
      return (first :: others, rest)
    | rest => return ([first], rest)

/-! ### Values -/

/-- How deep arrays and tables in braces may be nested. -/
def nestingLimit : Nat := 80

mutual

/-- A value at the beginning of a text, in which arrays and tables are nested `room` deep at
most. -/
def value? (room : Nat) : Nat → List Char → Option (Value × List Char)
  | 0, _ => none
  | fuel + 1, cs =>
    match cs with
    | '[' :: rest => do
      guard (room ≠ 0)
      return (.other, ← afterItems? (room - 1) fuel rest)
    | '\x7b' :: rest => do
      guard (room ≠ 0)
      return (.other, ← afterFields? (room - 1) fuel [] rest)
    | '"' :: _ | '\'' :: _ => (afterText? cs).map fun rest => (.other, rest)
    | _ => scalar? cs

/-- The rest after the items of an array and its closing bracket. -/
def afterItems? (room : Nat) : Nat → List Char → Option (List Char)
  | 0, _ => none
  | fuel + 1, cs =>
    match skipLines cs.length cs with
    | ']' :: rest => some rest
    | cs => do
      let (_, rest) ← value? room fuel cs
      match skipLines rest.length rest with
      | ']' :: rest => some rest
      | ',' :: rest => afterItems? room fuel rest
      | _ => none

/-- The rest after the fields of a table in braces and its closing brace. -/
def afterFields? (room : Nat) : Nat → Table → List Char → Option (List Char)
  | 0, _, _ => none
  | fuel + 1, table, cs =>
    match skipLines cs.length cs with
    | '\x7d' :: rest => some rest
    | cs => do
      let (path, rest) ← key? cs.length cs
      let '=' :: rest := rest | none
      let (v, rest) ← value? room fuel (skipBlanks rest)
      let table ← table.set? path v
      match skipLines rest.length rest with
      | '\x7d' :: rest => some rest
      | ',' :: rest => afterFields? room fuel table rest
      | _ => none

end

/-! ### Statements -/

/-- The rest after what may follow a statement on its line. -/
def afterLine? (cs : List Char) : Option (List Char) :=
  match skipComment (skipBlanks cs) with
  | [] => some []
  | rest => afterNewline? rest

/-- A statement at the beginning of a text. -/
def statement? (cs : List Char) : Option (Statement × List Char) :=
  match cs with
  | '[' :: '[' :: rest => do
    let (path, rest) ← key? rest.length rest
    let ']' :: ']' :: rest := rest | none
    return (.beginNext path, rest)
  | '[' :: rest => do
    let (path, rest) ← key? rest.length rest
    let ']' :: rest := rest | none
    return (.begin path, rest)
  | _ => do
    let (path, rest) ← key? cs.length cs
    let '=' :: rest := rest | none
    let (v, rest) ← value? nestingLimit (2 * rest.length + 2) (skipBlanks rest)
    return (.set path v, rest)

/-- The statements of a text. -/
def statements? : Nat → List Char → Option (List Statement)
  | fuel, cs =>
    match skipLines (cs.length + 1) cs, fuel with
    | [], _ => some []
    | _ :: _, 0 => none
    | c :: rest, fuel + 1 => do
      let (statement, rest) ← statement? (c :: rest)
      let statements ← statements? fuel (← afterLine? rest)
      return statement :: statements

/-- The table that statements build; `opened` is the path of the table opened last. -/
def build? (table : Table) (opened : List String) : List Statement → Option Table
  | [] => some table
  | .begin path :: rest => (table.begin? path).bind fun table => build? table path rest
  | .beginNext path :: rest => (table.beginNext? path).bind fun table => build? table path rest
  | .set path v :: rest => (table.setIn? opened path v).bind fun table => build? table opened rest

/-- A text without the mark of its byte order. -/
def withoutMark : List Char → List Char
  | '\uFEFF' :: rest => rest
  | cs => cs

/-- The table of a document. -/
def Table.ofText? (text : String) : Option Table := do
  let cs := withoutMark text.toList
  build? [] [] (← statements? cs.length cs)

end TaggedMemos.Toml
