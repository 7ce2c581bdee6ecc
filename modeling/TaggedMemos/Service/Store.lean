import TaggedMemos.Service.Action

/-!
# The Store

The store reads the whole collection for every question, and writes the whole collection for
every change. A change therefore takes effect as a whole or not at all.
-/

namespace TaggedMemos.Store

open TaggedMemos.Action

/-- The memos that a query selects. -/
def list (query : Query) : Action (List Memo) := do
  return query.select (← load)

/-- The memo with an identifier. -/
def find? (id : MemoId) : Action (Option Memo) := do
  return (← load).find? id

/-- Adds a memo. -/
def create (m : Memo) : Action Memo := do
  match (← load).add? m with
  | some memos =>
    save memos
    return m
  | none => throw (.store (.inUse m.id))

/-- Changes a memo, and its time of writing with it. -/
def update (id : MemoId) (change : Change) : Action Unit := do
  let memos ← load
  if memos.hasId id then save (memos.modify id (change.apply (← clock)))
  else throw (.memoNotFound id)

/-- Removes a memo and the comments on it. -/
def delete (id : MemoId) : Action Unit := do
  let memos ← load
  if memos.hasId id then save (memos.without id)
  else throw (.memoNotFound id)

/-- A memo of the caller. -/
def loadOwned (id : MemoId) : Action Memo := do
  match ← find? id with
  | none => throw (.memoNotFound id)
  | some m => if m.creator = (← read).user then return m else throw (.permissionDenied id)

/-- Replaces the text of a memo together with the payload, which has to be found first. -/
def replaceContent (id : MemoId) (content : String) : Action Unit := do
  let payload ← payloadOf content
  update id { content := some content, payload := some payload }

/-- The memos of the caller that are no comments and whose tags meet a condition. -/
def ownedWith (filter : TagFilter) : Action (List Memo) := do
  list ((Query.ownedBy (← read).user).withTag filter)

end TaggedMemos.Store
