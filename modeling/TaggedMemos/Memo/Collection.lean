import TaggedMemos.Memo.Query

/-!
# Collections of Memos

The memos of a store form one list in order of creation. Writing works on the whole list: a
memo is added at the end, changed in its place, or removed together with its comments.
-/

namespace TaggedMemos

/-- What to change in a memo. A part that is missing stays as it is. -/
structure Change where
  /-- The new text. -/
  content : Option String := none
  /-- The new tags and facts. -/
  payload : Option Payload := none
  deriving DecidableEq, Repr

/-- A memo changed at a given time. -/
def Change.apply (change : Change) (now : Timestamp) (m : Memo) : Memo :=
  { m with
    content := change.content.getD m.content
    payload := change.payload.getD m.payload
    updated := now }

/-- Memos in order of creation. -/
abbrev Collection := List Memo

namespace Collection

/-- The first memo with an identifier. -/
def find? (memos : Collection) (id : MemoId) : Option Memo :=
  match memos with
  | [] => none
  | m :: rest => if m.id = id then some m else find? rest id

/-- Whether some memo has an identifier. -/
def hasId (memos : Collection) (id : MemoId) : Bool :=
  (memos.find? id).isSome

/-- The collection with a new memo, unless its identifier is in use. -/
def add? (memos : Collection) (m : Memo) : Option Collection :=
  if memos.hasId m.id then none else some (memos ++ [m])

/-- The collection with the first memo that has an identifier changed. -/
def modify (memos : Collection) (id : MemoId) (change : Memo → Memo) : Collection :=
  match memos with
  | [] => []
  | m :: rest => if m.id = id then change m :: rest else m :: modify rest id change

/-- The collection without the memo that has an identifier and without the comments on it. -/
def without (memos : Collection) (id : MemoId) : Collection :=
  memos.filter fun m => m.id != id && m.parent != some id

end Collection

end TaggedMemos
