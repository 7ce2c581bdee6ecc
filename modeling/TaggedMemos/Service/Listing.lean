import TaggedMemos.Service.Store
import TaggedMemos.Tag.Hierarchy

/-!
# Listing Tags

The tags of a caller are those recorded with the caller's memos that are no comments. The index
is computed for every question.
-/

namespace TaggedMemos.Service

open TaggedMemos.Action

/-- What to list. -/
structure TagQuery where
  /-- What the paths have to begin with. -/
  start : Option String := none
  /-- Whether the identifiers of the memos are wanted. -/
  withIds : Bool := false
  /-- Whether the links between paths are wanted. -/
  withHierarchy : Bool := true
  deriving DecidableEq, Repr

/-- An entry with the identifiers of its memos only where they are wanted. -/
def shown (withIds : Bool) (node : TagNode) : TagNode :=
  if withIds then node else { node with memoIds := [] }

/-- The index of the caller's tags. -/
def callerTags : Action TagIndex := do
  let memos ← Store.list (Query.ownedBy (← read).user)
  let index := TagIndex.ofMemos (memos.map fun m => (m.id, m.payload.tags))
  note (.tagsCollected memos.length index.length)
  return index

/-- The part of an index that a query asks for. -/
def TagQuery.answer (query : TagQuery) (index : TagIndex) : List TagNode :=
  let index := match query.start with
    | some start => index.startingWith start
    | none => index
  let index := if query.withHierarchy then index.withHierarchy else index
  index.map fun entry => shown query.withIds entry.2

/-- The caller's tags in ascending order of path. -/
def listTags (query : TagQuery) : Action (List TagNode) := do
  return query.answer (← callerTags)

/-- One of the caller's tags, with its links and its total. -/
def getTag (input : String) (withIds : Bool) : Action TagNode := do
  let path ← requirePath input "tag_path"
  let index ← callerTags
  match index.withHierarchy.find? path with
  | some node => return shown withIds node
  | none => throw (.tagNotFound path)

end TaggedMemos.Service
