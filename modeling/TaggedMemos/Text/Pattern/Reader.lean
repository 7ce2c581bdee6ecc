import TaggedMemos.Text.Pattern.Bracket

/-!
# Reading Patterns

A pattern is read from left to right. What has been read of the group that is open, and of the
groups around it, is kept until they are closed.
-/

namespace TaggedMemos.Text.Pattern

/-- What has been read of a group. -/
structure Branches where
  /-- The choices that are complete, the last one first. -/
  choices : List Pattern := []
  /-- The parts of the choice that is not, the last one first; a change of flags is no part. -/
  parts : List (Option Pattern) := []
  deriving DecidableEq, Repr

/-- The choice that is not complete. -/
def Branches.current (b : Branches) : Pattern :=
  match b.parts.filterMap id with
  | [] => .empty
  | last :: before => before.foldl (fun rest p => .sequence p rest) last

/-- The pattern in a group. -/
def Branches.pattern (b : Branches) : Pattern :=
  b.choices.foldl (fun rest p => .choice p rest) b.current

/-- A group with one more part. -/
def Branches.push (b : Branches) (part : Option Pattern) : Branches :=
  { b with parts := part :: b.parts }

/-- A group with its last part repeated; there has to be one. -/
def Branches.repeat? (b : Branches) (least : Nat) (most : Option Nat) : Option Branches :=
  match b.parts with
  | some p :: before => some { b with parts := some (.repeated p least most) :: before }
  | _ => none

/-- What has been read of a pattern. -/
structure Progress where
  /-- The flags for what follows. -/
  flags : Flags := {}
  /-- The names of groups. -/
  names : List (List Char) := []
  /-- The group that is open. -/
  inner : Branches := {}
  /-- The groups around it, each with the flags for what follows the group inside. -/
  outer : List (Flags × Branches) := []
  deriving DecidableEq, Repr

/-- Flags in a group, up to the sign that ends them, with the letters read before. -/
def flagLetters? (f : Flags) (isOn : Bool) (seen : List Char) :
    List Char → Option (Flags × List Char × List Char)
  | [] => none
  | c :: rest =>
    if c == ':' || c == ')' then
      if seen.head? == some '-' then none else some (f, seen, c :: rest)
    else if seen.contains c then none
    else if c == '-' then flagLetters? f false (c :: seen) rest
    else do flagLetters? (← f.set? isOn c) isOn (c :: seen) rest

/-- Whether a text is a name for a group. -/
def isGroupName : List Char → Bool
  | [] => false
  | c :: cs =>
    (c == '_' || (isAlphanumeric c && !isDecimalDigit c && !otherNumbers.contains c)) &&
      cs.all fun c => c == '_' || c == '.' || c == '[' || c == ']' || isAlphanumeric c

namespace Progress

/-- Progress after the beginning of a group with its own flags. -/
def opened (p : Progress) (flags : Flags) : Progress :=
  { p with flags, inner := {}, outer := (p.flags, p.inner) :: p.outer }

/-- Progress after the beginning of a group with a name, given the text from the name on. No two
groups have the same name. -/
def openNamed? (p : Progress) (cs : List Char) : Option (Progress × List Char) :=
  let name := cs.takeWhile (· != '>')
  match cs.dropWhile (· != '>') with
  | '>' :: rest =>
    if isGroupName name && !p.names.contains name then
      some ({ p.opened p.flags with names := name :: p.names }, rest)
    else none
  | _ => none

/-- Progress after an opening parenthesis and what belongs to it, given the text behind the
parenthesis: a group begins, or flags change for the rest of the open group. -/
def openGroup? (p : Progress) (cs : List Char) : Option (Progress × List Char) :=
  match p.flags.pass cs with
  | '?' :: 'P' :: '<' :: rest => p.openNamed? rest
  | '?' :: '<' :: '=' :: _ | '?' :: '<' :: '!' :: _ => none
  | '?' :: '<' :: rest => p.openNamed? rest
  | '?' :: rest => do
    match ← flagLetters? p.flags true [] rest with
    | (flags, _, ':' :: rest) => return (p.opened flags, rest)
    | (_, [], _) => none
    | (flags, _, _ :: rest) => return ({ p with flags, inner := p.inner.push none }, rest)
    | _ => none
  | rest => some (p.opened p.flags, rest)

/-- Progress after a closing parenthesis. The group becomes a part of the group around it, which
has to exist. -/
def closeGroup? (p : Progress) : Option Progress :=
  match p.outer with
  | [] => none
  | (flags, branches) :: outer =>
    some { p with flags, inner := branches.push (some p.inner.pattern), outer }

/-- Progress after a bar: another choice begins in the open group. -/
def nextChoice (p : Progress) : Progress :=
  { p with inner := ⟨p.inner.current :: p.inner.choices, []⟩ }

/-- Progress after a part of the open group. -/
def push (p : Progress) (part : Pattern) : Progress :=
  { p with inner := p.inner.push (some part) }

/-- Progress after a sign that repeats the last part, given the text behind the sign. A question
mark there asks for as few repetitions as possible, which finds the same texts. -/
def repeat? (p : Progress) (least : Nat) (most : Option Nat) (cs : List Char) :
    Option (Progress × List Char) := do
  let inner ← p.inner.repeat? least most
  return ({ p with inner }, if cs.head? == some '?' then cs.drop 1 else cs)

/-- A decimal number of thirty-two bits, and the text behind it; blanks do not matter. -/
def count? (cs : List Char) : Option (Nat × List Char) := do
  let cs := trimStart cs
  let n ← decimal? (cs.takeWhile (·.isDigit))
  guard (n < 4294967296)
  return (n, trimStart (cs.dropWhile (·.isDigit)))

/-- Progress after numbers in braces that repeat the last part, given the text behind the first
brace. -/
def repeatCounted? (p : Progress) (cs : List Char) : Option (Progress × List Char) := do
  let (least, rest) ← count? (p.flags.pass cs)
  match rest with
  | '}' :: rest => p.repeat? least (some least) (p.flags.pass rest)
  | ',' :: rest =>
    match p.flags.pass rest with
    | '}' :: rest => p.repeat? least none (p.flags.pass rest)
    | rest => do
      let (most, rest) ← count? rest
      match rest with
      | '}' :: rest =>
        if least ≤ most then p.repeat? least (some most) (p.flags.pass rest) else none
      | _ => none
  | _ => none

/-- Progress after an escape. -/
def pushEscaped? (p : Progress) : Escaped → Option Progress
  | .char c => do return p.push (.char (← p.flags.range? c c))
  | .set s => some (p.push (.char s))
  | .place a => some (p.push (.place a))

/-- Progress after the next sign and what belongs to it. -/
def step? (p : Progress) (c : Char) (rest : List Char) : Option (Progress × List Char) :=
  let f := p.flags
  let place (a : Anchor) : Option (Progress × List Char) := some (p.push (.place a), rest)
  match c with
  | '(' => p.openGroup? rest
  | ')' => do return (← p.closeGroup?, rest)
  | '|' => some (p.nextChoice, rest)
  | '[' => do
    let (s, rest) ← bracket? f rest
    return (p.push (.char s), rest)
  | '?' => p.repeat? 0 (some 1) rest
  | '*' => p.repeat? 0 none rest
  | '+' => p.repeat? 1 none rest
  | '{' => p.repeatCounted? rest
  | '.' => do return (p.push (.char (← f.dot?)), rest)
  | '^' => place (if f.manyLines then .lineStart f.returns else .textStart)
  | '$' => place (if f.manyLines then .lineEnd f.returns else .textEnd)
  | '\\' => do
    let (e, rest) ← escape? f rest
    return (← p.pushEscaped? e, rest)
  | c => do return (p.push (.char (← f.range? c c)), rest)

/-- The pattern that is complete at the end of a text; `fuel` bounds its length. -/
def finish? : Nat → Progress → List Char → Option Pattern
  | 0, _, _ => none
  | fuel + 1, p, cs =>
    match p.flags.pass cs with
    | [] => if p.outer.isEmpty then some p.inner.pattern else none
    | c :: rest => do
      let (p, rest) ← p.step? c rest
      finish? fuel p rest

end Progress

/-- The pattern that a text is written for. -/
def ofText? (cs : List Char) : Option Pattern :=
  Progress.finish? (cs.length + 1) {} cs

end TaggedMemos.Text.Pattern
