import TaggedMemos.Memo.Id
import TaggedMemos.Memo.Payload
import TaggedMemos.Time.Timestamp

/-!
# Memos

A memo is a text with an owner. A memo below another one is a comment: it is left out of tag
listings and goes away together with the memo it belongs to.

Callers name memos by `memos/` and an identifier. A hyphen in place of the identifier stands for
every memo, and is refused wherever a single memo is asked for.
-/

namespace TaggedMemos

open Text

/-- The number of a user. -/
abbrev UserId := Int

/-- A memo. -/
structure Memo where
  /-- The identifier. -/
  id : MemoId
  /-- The owner. -/
  creator : UserId
  /-- The memo that this one is a comment on. -/
  parent : Option MemoId := none
  /-- The text. -/
  content : String
  /-- The tags and facts recorded for the text. -/
  payload : Payload := {}
  /-- When the memo was created. -/
  created : Timestamp
  /-- When the memo was last written. -/
  updated : Timestamp
  deriving DecidableEq, Repr, Inhabited

/-- Whether a memo is a comment on another one. -/
def Memo.isComment (m : Memo) : Bool :=
  m.parent.isSome

/-! ### Names -/

/-- What a name stands for. -/
inductive MemoName where
  /-- Every memo. -/
  | all
  /-- The memo with an identifier. -/
  | single (id : MemoId)
  deriving DecidableEq, Repr

namespace MemoName

/-- What the name of a memo begins with. -/
def start : String := "memos/"

/-- The name of the memo with an identifier. -/
def ofId (id : MemoId) : String :=
  start ++ id.toText

/-- What a text names. -/
def ofText? (text : String) : Option MemoName :=
  match stripPrefix? start.toList text.toList with
  | none => none
  | some ['-'] => some all
  | some rest => (MemoId.ofText? (String.ofList rest)).map single

end MemoName

/-- The name of a memo. -/
def Memo.name (m : Memo) : String :=
  MemoName.ofId m.id

end TaggedMemos
