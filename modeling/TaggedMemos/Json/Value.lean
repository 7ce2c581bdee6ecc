/-!
# JSON Values

Values as the memo file needs them. Only integers are kept of numbers, since no other number is
ever wanted; the rest are known to be numbers and nothing more. A text whose escapes leave a
surrogate without its partner is no text; it is let through where nobody asks for its value.
Objects keep their fields in order, repeated keys included.
-/

namespace TaggedMemos.Json

/-- A JSON value. -/
inductive Value where
  /-- The value `null`. -/
  | null
  /-- A truth value. -/
  | bool (value : Bool)
  /-- A number; its value when it is written as an integer. -/
  | number (value : Option Int)
  /-- A text; missing when it has a surrogate without its partner. -/
  | text (value : Option String)
  /-- An array. -/
  | array (items : List Value)
  /-- An object, its fields in order. -/
  | object (fields : List (Option String × Value))
  deriving Repr

namespace Value

instance : Inhabited Value := ⟨null⟩

/-! ### Building values -/

/-- A text. -/
def string (s : String) : Value :=
  text (some s)

/-- A natural number. -/
def nat (n : Nat) : Value :=
  number (some n)

/-- An array of texts. -/
def strings (texts : List String) : Value :=
  array (texts.map string)

/-- An object with the given fields. -/
def record (fields : List (String × Value)) : Value :=
  object (fields.map fun (key, value) => (some key, value))

/-! ### Taking values apart -/

/-- The text a value is. -/
def string? : Value → Option String
  | text s => s
  | _ => none

/-- The truth value a value is. -/
def bool? : Value → Option Bool
  | bool b => some b
  | _ => none

/-- The integer a value is. -/
def integer? : Value → Option Int
  | number n => n
  | _ => none

/-- The texts of an array of texts. -/
def strings? : Value → Option (List String)
  | array items => items.mapM string?
  | _ => none

/-- The values of the fields with a key. -/
def valuesOf (key : String) (fields : List (Option String × Value)) : List Value :=
  fields.filterMap fun (k, value) => if k = some key then some value else none

/-- The values a record has for the given keys, in the order of the keys. A record is an object,
in which other keys may occur and the given ones at most once, or an array with a value for each
key, of which the last ones may be missing. -/
def record? (keys : List String) : Value → Option (List (Option Value))
  | object fields =>
    if fields.all (·.1.isSome) then
      keys.mapM fun key =>
        match valuesOf key fields with
        | [] => some none
        | [value] => some (some value)
        | _ => none
    else none
  | array items =>
    if items.length ≤ keys.length then
      some (items.map some ++ List.replicate (keys.length - items.length) none)
    else none
  | _ => none

end Value

end TaggedMemos.Json
