import TaggedMemos.Json.Reader
import TaggedMemos.Json.Writer
import TaggedMemos.Memo.Collection
import TaggedMemos.Text.Blank
import TaggedMemos.Time.Reading

/-!
# The Memo File

A collection is kept in a file as a JSON array of memos. Writing states every field of a memo
but the parent of one that has none. Reading accepts any order of fields, fields that mean
nothing here, a memo whose payload is missing in whole or in part, and a memo given as an array
of its fields. A file that holds nothing but blank characters is an empty collection.
-/

namespace TaggedMemos

open Json Text

/-! ### Writing -/

/-- Facts about a text as a record. -/
def Property.toJson (p : Property) : Value :=
  .record [("has_link", .bool p.hasLink), ("has_task_list", .bool p.hasTaskList),
    ("has_code", .bool p.hasCode), ("has_incomplete_tasks", .bool p.hasIncompleteTasks),
    ("references", .strings p.references)]

/-- A payload as a record. -/
def Payload.toJson (p : Payload) : Value :=
  .record [("tags", .strings p.tags), ("property", p.property.toJson)]

/-- A memo as a record. -/
def Memo.toJson (m : Memo) : Value :=
  .record ([("id", .string m.id.toText), ("creator_id", .number m.creator)] ++
    (m.parent.toList.map fun parent => ("parent_id", .string parent.toText)) ++
    [("content", .string m.content), ("payload", m.payload.toJson),
      ("created_at", .string m.created.toText), ("updated_at", .string m.updated.toText)])

/-- The text of the file that holds a collection. -/
def Collection.toFile (memos : Collection) : String :=
  (Value.array (memos.map Memo.toJson)).toText

/-! ### Reading -/

/-- What a field holds, or a default where it is missing. -/
def fieldOr (default : α) (read : Value → Option α) : Option Value → Option α
  | none => some default
  | some value => read value

/-- Facts about a text. -/
def Property.ofJson? (value : Value) : Option Property := do
  match ← value.record?
      ["has_link", "has_task_list", "has_code", "has_incomplete_tasks", "references"] with
  | [link, tasks, code, incomplete, references] =>
    return {
      hasLink := ← fieldOr false Value.bool? link
      hasTaskList := ← fieldOr false Value.bool? tasks
      hasCode := ← fieldOr false Value.bool? code
      hasIncompleteTasks := ← fieldOr false Value.bool? incomplete
      references := ← fieldOr [] Value.strings? references }
  | _ => none

/-- A payload. -/
def Payload.ofJson? (value : Value) : Option Payload := do
  match ← value.record? ["tags", "property"] with
  | [tags, property] =>
    return {
      tags := ← fieldOr [] Value.strings? tags
      property := ← fieldOr {} Property.ofJson? property }
  | _ => none

/-- An identifier. -/
def MemoId.ofJson? (value : Value) : Option MemoId :=
  value.string?.bind MemoId.ofText?

/-- An identifier, or nothing. -/
def MemoId.optionOfJson? : Value → Option (Option MemoId)
  | .null => some none
  | value => (MemoId.ofJson? value).map some

/-- Whether a number can be the number of a user: users are numbered by 32 bits with a sign. -/
def isUserId (n : Int) : Bool :=
  -2147483648 ≤ n && n ≤ 2147483647

/-- The number of a user. -/
def userIdOfJson? (value : Value) : Option UserId :=
  value.integer?.filter isUserId

/-- A timestamp. -/
def Timestamp.ofJson? (value : Value) : Option Timestamp :=
  value.string?.bind Timestamp.ofText?

/-- A memo. -/
def Memo.ofJson? (value : Value) : Option Memo := do
  match ← value.record?
      ["id", "creator_id", "parent_id", "content", "payload", "created_at", "updated_at"] with
  | [some id, some creator, parent, some content, payload, some created, some updated] =>
    return {
      id := ← MemoId.ofJson? id
      creator := ← userIdOfJson? creator
      parent := ← fieldOr none MemoId.optionOfJson? parent
      content := ← content.string?
      payload := ← fieldOr {} Payload.ofJson? payload
      created := ← Timestamp.ofJson? created
      updated := ← Timestamp.ofJson? updated }
  | _ => none

/-- The collection that the text of a file holds. -/
def Collection.ofFile? (text : String) : Option Collection :=
  let cs := text.toList
  if Text.isBlankText cs then some []
  else match Value.ofChars? cs with
    | some (.array items) => items.mapM Memo.ofJson?
    | _ => none

end TaggedMemos
