import TaggedMemos.Markdown.CharacterReference
import TaggedMemos.Markdown.Token
import TaggedMemos.Markdown.Margin

/-!
# Link Targets

A link leads to a destination and may have a title. Both are read from the parentheses after a
link text, `[text](destination "title")`, or from a reference definition; this module has what
the two share, and the former.

A destination stands in angle brackets, or goes up to the first space or control character
with its parentheses balanced.
-/

namespace TaggedMemos.Markdown

open Text

/-- Where a link leads. -/
structure Target where
  /-- The destination. -/
  url : String
  /-- The title, empty if there is none. -/
  title : String := ""
  deriving DecidableEq, Repr

/-! ### Escapes -/

/-- Whether a text begins with a backslash and a character that it escapes. -/
def beginsEscape (cs : List Char) : Bool :=
  match cs with
  | '\\' :: c :: _ => isAsciiPunctuation c
  | _ => false

/-- Resolves escapes, after `skip` characters that are resolved already. -/
def unescapeFrom : Nat → List Char → List Char
  | _, [] => []
  | skip + 1, _ :: rest => unescapeFrom skip rest
  | 0, c :: rest =>
    if beginsEscape (c :: rest) then rest.take 1 ++ unescapeFrom 1 rest
    else match reference? (c :: rest) with
      | some (text, n) => text ++ unescapeFrom (n - 1) rest
      | none => if c = '\r' then unescapeFrom 0 rest else c :: unescapeFrom 0 rest

/-- A text with its backslash escapes and character references resolved and without carriage
returns. -/
def unescape (cs : List Char) : String :=
  String.ofList (unescapeFrom 0 cs)

/-! ### Destinations -/

/-- The length of a destination in angle brackets, from after the `<` up to the `>`. -/
def bracketedLength? : Nat → List Char → Option Nat
  | _, [] => none
  | skip + 1, _ :: rest => (bracketedLength? skip rest).map (· + 1)
  | 0, c :: rest =>
    if c = '>' then some 0
    else if isEol c || c = '<' then none
    else if beginsEscape (c :: rest) then (bracketedLength? 1 rest).map (· + 1)
    else (bracketedLength? 0 rest).map (· + 1)

/-- How many parentheses may be open at a time in a destination without angle brackets. -/
def destinationNesting : Nat := 33

/-- The length of a destination without angle brackets, `depth` parentheses being open. -/
def bareLength? (depth : Nat) : Nat → List Char → Option Nat
  | _, [] => if depth = 0 then some 0 else none
  | skip + 1, _ :: rest => (bareLength? depth skip rest).map (· + 1)
  | 0, c :: rest =>
    if c.toNat ≤ 0x20 || (c = ')' && depth = 0) then if depth = 0 then some 0 else none
    else if c = '(' then
      if depth = destinationNesting then none else (bareLength? (depth + 1) 0 rest).map (· + 1)
    else if c = ')' then (bareLength? (depth - 1) 0 rest).map (· + 1)
    else if beginsEscape (c :: rest) then (bareLength? depth 1 rest).map (· + 1)
    else (bareLength? depth 0 rest).map (· + 1)

/-- Passes a destination; it may be empty. -/
def passDestination (cursor : Cursor) : Option (List Char × Cursor) :=
  match cursor.rest with
  | '<' :: rest =>
    (bracketedLength? 0 rest).map fun n => (rest.take n, cursor.skip (n + 2))
  | rest => (bareLength? 0 0 rest).map fun n => (rest.take n, cursor.skip n)

/-! ### Titles -/

/-- The character that closes a title opened by `c`. -/
def titleClosing? (c : Char) : Option Char :=
  if c = '(' then some ')' else if c = '"' || c = '\'' then some c else none

/-- Where the title in a paragraph goes on after a line ending: at the next token, past the
margin of the line. -/
def afterLineEnding? (tokens : List Token) (cursor : Cursor) : Option Cursor :=
  match tokens.find? fun token => cursor.pos + 1 < token.span.stop with
  | some token =>
    if cursor.pos < token.span.start then some (cursor.seek token.span.start) else none
  | none => none

/-- Reads a title up to and including its closing character; `read` is what was read, backwards
and with escapes resolved. -/
def readTitle (opening closing : Char) (tokens : List Token) (read : List Char) :
    Nat → Cursor → Option (String × Cursor)
  | 0, _ => none
  | fuel + 1, cursor =>
    let go := fun (part : List Char) (next : Cursor) =>
      readTitle opening closing tokens (part.reverse ++ read) fuel next
    match cursor.rest with
    | [] => none
    | c :: rest =>
      if c = closing then some (String.ofList read.reverse, cursor.skip 1)
      else if c = opening then none
      else
        let next? := if isEol c then afterLineEnding? tokens cursor else none
        match next? with
        | some next => go ['\n'] next
        | none =>
          match reference? (c :: rest) with
          | some (text, n) => go text (cursor.skip n)
          | none =>
            if beginsEscape (c :: rest) then go (rest.take 1) (cursor.skip 2)
            else go [c] (cursor.skip 1)

/-- Passes the title in a paragraph, if there is one; `tokens` are those of the paragraph that
follow. -/
def passTitle (tokens : List Token) (cursor : Cursor) : Option (String × Cursor) :=
  match cursor.rest with
  | c :: rest =>
    (titleClosing? c).bind fun closing =>
      readTitle c closing tokens [] (rest.length + 1) (cursor.skip 1)
  | [] => none

/-! ### Targets in parentheses -/

/-- Passes gaps and at most one line ending, with the margin of the line that follows. -/
def passSeparator (holders : List Holder) (cursor : Cursor) : Cursor :=
  let cursor := cursor.skipGap
  match eol? cursor.rest with
  | some n => ((cursor.skip n).skipHolders holders).skipGap
  | none => cursor

/-- Passes the target in parentheses that follows a link text. -/
def passTarget (holders : List Holder) (tokens : List Token) (cursor : Cursor) :
    Option (Target × Cursor) := do
  if cursor.rest.head? != some '(' then none
  else
    let (raw, cursor) ← passDestination (passSeparator holders (cursor.skip 1))
    let cursor := passSeparator holders cursor
    let (title, cursor) :=
      match passTitle tokens cursor with
      | some (title, next) => (title, passSeparator holders next)
      | none => ("", cursor)
    if cursor.rest.head? == some ')' then some (⟨unescape raw, title⟩, cursor.skip 1) else none

end TaggedMemos.Markdown
