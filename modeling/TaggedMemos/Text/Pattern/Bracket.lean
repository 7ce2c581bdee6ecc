import TaggedMemos.Text.Pattern.Escape

/-!
# Sets in Brackets

A set of characters is written in brackets, as a list of characters, ranges, escapes, named sets
and sets in brackets again. Sets can be intersected and taken from each other, from the left to
the right.
-/

namespace TaggedMemos.Text.Pattern

/-- What is done with two sets. -/
inductive SetOperation where
  /-- The characters of both are taken. -/
  | inter
  /-- The characters of the second are taken away. -/
  | diff
  /-- The characters of exactly one are taken. -/
  | symmDiff
  deriving DecidableEq, Repr

/-- The result of an operation. -/
def SetOperation.apply : SetOperation → CharSet → CharSet → CharSet
  | inter => .inter
  | diff => .diff
  | symmDiff => .symmDiff

/-- The result of an operation that waits for its second set, or the set alone. -/
def combined (pending : Option (SetOperation × CharSet)) (s : CharSet) : CharSet :=
  match pending with
  | some (operation, t) => operation.apply t s
  | none => s

/-- The characters of a named set of ASCII. -/
def namedSet? (name : List Char) : Option CharSet :=
  match String.ofList name with
  | "alnum" => some (.ranges [('0', '9'), ('A', 'Z'), ('a', 'z')])
  | "alpha" => some (.ranges [('A', 'Z'), ('a', 'z')])
  | "ascii" => some (.range (Char.ofNat 0) (Char.ofNat 127))
  | "blank" => some (.ranges [('\t', '\t'), (' ', ' ')])
  | "cntrl" => some (.ranges [(Char.ofNat 0, Char.ofNat 31), (Char.ofNat 127, Char.ofNat 127)])
  | "digit" => some (.range '0' '9')
  | "graph" => some (.range '!' '~')
  | "lower" => some (.range 'a' 'z')
  | "print" => some (.range ' ' '~')
  | "punct" => some (.ranges [('!', '/'), (':', '@'), ('[', Char.ofNat 96), (Char.ofNat 123, '~')])
  | "space" => some (.ranges [('\t', '\x0d'), (' ', ' ')])
  | "upper" => some (.range 'A' 'Z')
  | "word" => some (.ranges [('0', '9'), ('A', 'Z'), ('_', '_'), ('a', 'z')])
  | "xdigit" => some (.ranges [('0', '9'), ('A', 'F'), ('a', 'f')])
  | _ => none

/-- What follows a name in colons and the bracket behind it, with the name. -/
def nameInColons? (cs : List Char) : Option (List Char × List Char) :=
  match cs.dropWhile (· != ':') with
  | ':' :: ']' :: rest => some (cs.takeWhile (· != ':'), rest)
  | _ => none

/-- The named set behind a bracket, with whether its characters are left out. -/
def namedSetBehind? : List Char → Option (Bool × CharSet × List Char)
  | ':' :: '^' :: cs => do
    let (name, rest) ← nameInColons? cs
    return (true, ← namedSet? name, rest)
  | ':' :: cs => do
    let (name, rest) ← nameInColons? cs
    return (false, ← namedSet? name, rest)
  | _ => none

/-- A character or an escape in brackets. -/
def member? (f : Flags) : List Char → Option (Escaped × List Char)
  | [] => none
  | '\\' :: rest => escape? f rest
  | c :: rest => some (.char c, rest)

/-- A character, a set, or the characters from one to another, in brackets. A dash before the end
of the brackets or another dash stands for itself. -/
def range? (f : Flags) (cs : List Char) : Option (CharSet × List Char) := do
  let (first, rest) ← member? f cs
  let rest := f.pass rest
  let alone : Option (CharSet × List Char) :=
    match first with
    | .char c => do return (← f.range? c c, rest)
    | .set s => some (s, rest)
    | .place _ => none
  match rest with
  | [] => none
  | '-' :: behind =>
    match f.pass behind with
    | [] => none
    | ']' :: _ | '-' :: _ => alone
    | behind =>
      match first, ← member? f behind with
      | .char first, (.char last, rest) =>
        if first ≤ last then return (← f.range? first last, rest) else none
      | _, _ => none
  | _ => alone

/-- The dashes that brackets begin with, as a set, and what is behind them. -/
def leadingDashes (f : Flags) (s : CharSet) : Nat → List Char → CharSet × List Char
  | fuel + 1, '-' :: rest => leadingDashes f (.single '-') fuel (f.pass rest)
  | _, cs => (s, cs)

/-- The beginning of brackets: whether the characters are left out, and those of them that stand
for themselves because they are the first. -/
def bracketStart (f : Flags) (cs : List Char) : Bool × CharSet × List Char :=
  let (isNegated, cs) :=
    match f.pass cs with
    | '^' :: rest => (true, f.pass rest)
    | cs => (false, cs)
  match leadingDashes f .nothing cs.length cs with
  | (.nothing, ']' :: rest) => (isNegated, .single ']', f.pass rest)
  | (s, rest) => (isNegated, s, rest)

/-- The rest of a set in brackets, given the operation that waits for it and the characters
before; `fuel` bounds its length. -/
def bracketRest? (f : Flags) :
    Nat → Option (SetOperation × CharSet) → CharSet → List Char → Option (CharSet × List Char)
  | 0, _, _, _ => none
  | fuel + 1, pending, s, cs =>
    match f.pass cs with
    | [] => none
    | ']' :: rest => some (combined pending s, rest)
    | '[' :: inside =>
      match namedSetBehind? inside with
      | some (isNegated, t, rest) => do
        let t := f.cased t
        let t ← if isNegated then f.complement? t else some t
        bracketRest? f fuel pending (.union s t) rest
      | none => do
        let (isNegated, t, inside) := bracketStart f inside
        let (t, rest) ← bracketRest? f fuel none t inside
        let t ← if isNegated then f.complement? t else some t
        bracketRest? f fuel pending (.union s t) rest
    | '&' :: '&' :: rest => bracketRest? f fuel (some (.inter, combined pending s)) .nothing rest
    | '-' :: '-' :: rest => bracketRest? f fuel (some (.diff, combined pending s)) .nothing rest
    | '~' :: '~' :: rest =>
      bracketRest? f fuel (some (.symmDiff, combined pending s)) .nothing rest
    | cs => do
      let (t, rest) ← range? f cs
      bracketRest? f fuel pending (.union s t) rest

/-- A set in brackets, after the first bracket. -/
def bracket? (f : Flags) (cs : List Char) : Option (CharSet × List Char) := do
  let (isNegated, s, inside) := bracketStart f cs
  let (s, rest) ← bracketRest? f (cs.length + 1) none s inside
  return (← if isNegated then f.complement? s else some s, rest)

end TaggedMemos.Text.Pattern
