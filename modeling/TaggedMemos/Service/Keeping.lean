import TaggedMemos.Service.Store

/-!
# Keeping Memos

Creating, editing, showing, listing and deleting memos. Every text is read before it is stored,
and the payload found in it is stored with it, so that the tags recorded with a memo are never
those of another text.
-/

namespace TaggedMemos.Service

open TaggedMemos.Action

/-- Refuses a text with more characters than allowed. -/
def checkLength (content : String) : Action Unit := do
  let limit := (← read).settings.contentLimit
  if limit < content.length then reject (.tooLong content.length limit)

/-- The memo that a name stands for, where it has to be a single one. -/
def resolveSingle (name : String) : Action MemoId :=
  match MemoName.ofText? name with
  | some (.single id) => return id
  | some .all => reject (.notSingle name)
  | none => reject (.badName name)

/-- The memo that a new comment belongs to: one of the caller's. -/
def resolveParent : Option String → Action (Option MemoId)
  | none => return none
  | some name => do
    let m ← Store.loadOwned (← resolveSingle name)
    return some m.id

/-- Creates a memo, or a comment on the memo with the name `parent`. -/
def createMemo (content : String) (parent : Option String) : Action Memo := do
  checkLength content
  let parent ← resolveParent parent
  let payload ← payloadOf content
  let c ← read
  let now ← clock
  let m ← Store.create
    { id := c.freshId, creator := c.user, parent, content, payload, created := now,
      updated := now }
  note (.memoCreated m.id m.payload.tags.length)
  return m

/-- Replaces the text of a memo. -/
def updateMemo (name content : String) : Action Memo := do
  checkLength content
  let id ← resolveSingle name
  let m ← Store.loadOwned id
  Store.replaceContent m.id content
  note (.memoUpdated id)
  match ← Store.find? id with
  | some m => return m
  | none => throw (.memoNotFound id)

/-- A memo of the caller. -/
def getMemo (name : String) : Action Memo := do
  Store.loadOwned (← resolveSingle name)

/-- The caller's memos that are no comments; with a tag, those that carry it or one below it. -/
def listMemos (tag : Option String) : Action (List Memo) := do
  match tag with
  | none => Store.list (Query.ownedBy (← read).user)
  | some tag => Store.ownedWith (.carriesWithin (← requirePath tag "tag"))

/-- Deletes a memo together with the comments on it. -/
def deleteMemo (name : String) : Action MemoId := do
  let id ← resolveSingle name
  let _ ← Store.loadOwned id
  Store.delete id
  note (.memoDeleted id)
  return id

end TaggedMemos.Service
