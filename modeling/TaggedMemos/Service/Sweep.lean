import TaggedMemos.Service.Store
import TaggedMemos.Tag.Marker

/-!
# Sweeps

A sweep selects memos of the caller by a tag and treats them one after the other, in the order
of the store. Before each memo it looks whether the caller has given up. It stops at the first
fault and names the memo that was struck. What was done before stays done.

Renaming and removing a tag by a sweep works on the raw text of the memos: it changes every
marker of the tag, also inside code and at the front of longer tags. Memos are selected by the
tags recorded with them, for which only the exact path counts.
-/

namespace TaggedMemos.Service

open TaggedMemos.Action

/-- Treats memos in order, `done` of them being done already. -/
def sweepFrom (failed : MemoId → Nat → Fault → Occurrence) (treat : Memo → Action Unit) :
    Nat → List Memo → Action Unit
  | _, [] => return ()
  | done, m :: rest => do
    ensureActive
    try treat m
    catch fault =>
      note (failed m.id done fault)
      throw (.memoWrite m.id fault)
    sweepFrom failed treat (done + 1) rest

/-- Treats memos in order and gives their identifiers. -/
def sweep (failed : MemoId → Nat → Fault → Occurrence) (treat : Memo → Action Unit)
    (memos : List Memo) : Action (List MemoId) := do
  sweepFrom failed treat 0 memos
  return memos.map (·.id)

/-! ### Renaming -/

/-- The answer to renaming a tag. -/
structure Renaming where
  /-- The memos that carried the tag. -/
  memos : List MemoId
  /-- The path before. -/
  old : String
  /-- The path after. -/
  new : String
  deriving DecidableEq, Repr

/-- Renames a tag in every memo of the caller that carries it. The wish to move the tags below it
as well goes into the record and changes nothing. -/
def renameTag (oldInput newInput : String) (moveChildren : Bool) : Action Renaming := do
  let old ← requirePath oldInput "old_tag_path"
  let new ← requirePath newInput "new_tag_path"
  let memos ← Store.ownedWith (.carries old)
  if memos.isEmpty then throw (.noMemosWithTag old)
  let ids ← sweep .tagRenameFailed
    (fun m => Store.replaceContent m.id (Tag.replaceMarker m.content old new)) memos
  note (.tagRenamed old new moveChildren ids.length)
  return ⟨ids, old, new⟩

/-! ### Deleting a tag -/

/-- The answer to deleting a tag. -/
structure TagDeletion where
  /-- The memos that carried the tag. -/
  memos : List MemoId
  /-- The tag, if some memo carried it. -/
  paths : List String
  deriving DecidableEq, Repr

/-- What deleting a tag does to one memo. -/
def deletionOf (strategy : DeleteStrategy) (path : String) (m : Memo) : Action Unit :=
  match strategy with
  | .deleteMemos => Store.delete m.id
  | _ => Store.replaceContent m.id (Tag.stripMarker m.content path)

/-- Deletes a tag from every memo of the caller that carries it, or these memos with it. -/
def deleteTag (input : String) (strategy : DeleteStrategy) : Action TagDeletion := do
  let path ← requirePath input "tag_path"
  if strategy = .unspecified then reject .strategyMissing
  let memos ← Store.ownedWith (.carries path)
  let ids ← sweep .tagDeleteFailed (deletionOf strategy path) memos
  note (.tagDeleted path strategy ids.length)
  return ⟨ids, if ids.isEmpty then [] else [path]⟩

/-! ### Deleting the memos with a tag -/

/-- The answer to deleting the memos with a tag. -/
structure BatchDeletion where
  /-- The memos that carried the tag. -/
  memos : List MemoId
  /-- Their number. -/
  count : Nat
  /-- The paths met on them. -/
  paths : List String
  /-- Whether nothing was deleted. -/
  dryRun : Bool
  deriving DecidableEq, Repr

/-- The paths met so far, after a memo with the given tags: the path asked for comes first, and
with `children` the paths below it follow in the order in which they are met. -/
def addPathsMet (path : String) (children : Bool) (met tags : List String) : List String :=
  let met := if met.isEmpty then [path] else met
  if children then (tags.filter (TagPath.isSameOrBelow path)).foldl addOnce met else met

/-- The paths met on a list of memos. -/
def pathsMet (path : String) (children : Bool) (memos : List Memo) : List String :=
  memos.foldl (fun met m => addPathsMet path children met m.payload.tags) []

/-- Deletes every memo of the caller that carries a tag, or with `children` one below it. A dry
run gives the same answer and deletes nothing. -/
def batchDelete (input : String) (children dryRun : Bool) : Action BatchDeletion := do
  if input.isEmpty then reject .pathMissing
  let path ← requirePath input "tag_path"
  let memos ← Store.ownedWith (if children then .carriesWithin path else .carries path)
  let ids ← sweep .batchDeleteFailed
    (fun m => if dryRun then return () else Store.delete m.id) memos
  note (.batchDeleted path children dryRun ids.length)
  return ⟨ids, ids.length, pathsMet path children memos, dryRun⟩

end TaggedMemos.Service
