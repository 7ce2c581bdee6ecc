import TaggedMemos.Json.Value
import TaggedMemos.Text.Numeral

/-!
# Writing JSON

Values are written over several lines: every item of an array and every field of an object has a
line of its own, indented by two spaces for each level. Empty arrays and objects stay on one
line. In texts, quotes, backslashes and control characters are escaped and nothing else.
-/

namespace TaggedMemos.Json

open Text

/-- A character as it is written in a text. -/
def escaped (c : Char) : List Char :=
  if c = '"' then ['\\', '"']
  else if c = '\\' then ['\\', '\\']
  else if c = '\x08' then ['\\', 'b']
  else if c = '\x0c' then ['\\', 'f']
  else if c = '\n' then ['\\', 'n']
  else if c = '\r' then ['\\', 'r']
  else if c = '\t' then ['\\', 't']
  else if c < ' ' then '\\' :: 'u' :: hexDigits 4 c.toNat
  else [c]

/-- A text in quotes. -/
def quoted (s : String) : List Char :=
  '"' :: s.toList.flatMap escaped ++ ['"']

/-- The beginning of a line at a level of nesting. -/
def newLine (level : Nat) : List Char :=
  '\n' :: List.replicate (2 * level) ' '

mutual

/-- A value at a level of nesting. -/
def Value.writtenAt (level : Nat) : Value → List Char
  | .null => "null".toList
  | .bool b => (if b then "true" else "false").toList
  | .number n => (toString (n.getD 0)).toList
  | .text s => quoted (s.getD "")
  | .array [] => "[]".toList
  | .array (item :: items) =>
    '[' :: newLine (level + 1) ++ item.writtenAt (level + 1) ++ writtenItems (level + 1) items ++
      newLine level ++ [']']
  | .object [] => "\x7b\x7d".toList
  | .object (field :: fields) =>
    '\x7b' :: newLine (level + 1) ++ writtenField (level + 1) field ++
      writtenFields (level + 1) fields ++ newLine level ++ ['\x7d']

/-- The items after the first one. -/
def writtenItems (level : Nat) : List Value → List Char
  | [] => []
  | item :: items =>
    ',' :: newLine level ++ item.writtenAt level ++ writtenItems level items

/-- A field. -/
def writtenField (level : Nat) : Option String × Value → List Char
  | (key, value) => quoted (key.getD "") ++ ':' :: ' ' :: value.writtenAt level

/-- The fields after the first one. -/
def writtenFields (level : Nat) : List (Option String × Value) → List Char
  | [] => []
  | field :: fields =>
    ',' :: newLine level ++ writtenField level field ++ writtenFields level fields

end

/-- A value over several lines. -/
def Value.toText (value : Value) : String :=
  String.ofList (value.writtenAt 0)

end TaggedMemos.Json
