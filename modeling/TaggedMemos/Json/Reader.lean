import TaggedMemos.Json.Token
import TaggedMemos.Json.Value

/-!
# Reading JSON

A value is read from the tokens of a text, all of which it has to use up. Commas stand between
items and fields and nowhere else.
-/

namespace TaggedMemos.Json

mutual

/-- The value that a sequence of tokens begins with. Nesting and length together are bounded by
the first argument. -/
def value? : Nat → List Token → Option (Value × List Token)
  | 0, _ => none
  | fuel + 1, tokens =>
    match tokens with
    | .null :: rest => some (.null, rest)
    | .bool b :: rest => some (.bool b, rest)
    | .number n :: rest => some (.number n, rest)
    | .text s :: rest => some (.text s, rest)
    | .openArray :: .closeArray :: rest => some (.array [], rest)
    | .openArray :: rest => (items? fuel rest).map fun (items, rest) => (.array items, rest)
    | .openObject :: .closeObject :: rest => some (.object [], rest)
    | .openObject :: rest => (fields? fuel rest).map fun (fields, rest) => (.object fields, rest)
    | _ => none

/-- The items of an array, at least one, up to its closing bracket. -/
def items? : Nat → List Token → Option (List Value × List Token)
  | 0, _ => none
  | fuel + 1, tokens => do
    let (value, rest) ← value? fuel tokens
    match rest with
    | .closeArray :: rest => return ([value], rest)
    | .comma :: rest =>
      let (items, rest) ← items? fuel rest
      return (value :: items, rest)
    | _ => none

/-- The fields of an object, at least one, up to its closing brace. -/
def fields? : Nat → List Token → Option (List (Option String × Value) × List Token)
  | 0, _ => none
  | fuel + 1, tokens =>
    match tokens with
    | .text key :: .colon :: rest => do
      let (value, rest) ← value? fuel rest
      match rest with
      | .closeObject :: rest => return ([(key, value)], rest)
      | .comma :: rest =>
        let (fields, rest) ← fields? fuel rest
        return ((key, value) :: fields, rest)
      | _ => none
    | _ => none

end

/-- The value written in a text. Every token takes at most two steps. -/
def Value.ofChars? (cs : List Char) : Option Value := do
  let tokens ← tokens? cs
  match value? (2 * tokens.length + 1) tokens with
  | some (value, []) => some value
  | _ => none

end TaggedMemos.Json
