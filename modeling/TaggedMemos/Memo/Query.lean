import TaggedMemos.Memo.Memo
import TaggedMemos.Tag.Path

/-!
# Queries

A query selects memos from a list by identifier, owner, tags and place in the list. The memos
selected keep their order.
-/

namespace TaggedMemos

/-- A condition on the tags recorded with a memo. -/
inductive TagFilter where
  /-- Exactly this path is among the tags. -/
  | carries (path : String)
  /-- This path or one below it is among the tags. -/
  | carriesWithin (path : String)
  deriving DecidableEq, Repr

/-- Whether a payload meets a condition. -/
def TagFilter.admits : TagFilter → Payload → Bool
  | carries path, payload => payload.hasTag path
  | carriesWithin path, payload => payload.tags.any (TagPath.isSameOrBelow path)

/-- What to select. A part that is missing does not restrict the selection. -/
structure Query where
  /-- Only the memo with this identifier. -/
  id : Option MemoId := none
  /-- Only the memos of this owner. -/
  creator : Option UserId := none
  /-- Only memos whose tags meet this condition. -/
  tag : Option TagFilter := none
  /-- No comments. -/
  withoutComments : Bool := false
  /-- The number of selected memos to leave out at the beginning. -/
  offset : Nat := 0
  /-- The number of memos to select at most. -/
  limit : Option Nat := none
  deriving DecidableEq, Repr

namespace Query

/-- The memos of one owner that are no comments. -/
def ownedBy (user : UserId) : Query :=
  { creator := some user, withoutComments := true }

/-- A query restricted to memos whose tags meet a condition. -/
def withTag (query : Query) (filter : TagFilter) : Query :=
  { query with tag := some filter }

/-- A page of everything. -/
def page (offset limit : Nat) : Query :=
  { offset, limit := some limit }

/-- Whether a memo meets the conditions of a query. -/
def admits (query : Query) (m : Memo) : Bool :=
  query.id.all (· == m.id) && query.creator.all (· == m.creator) &&
    !(query.withoutComments && m.isComment) && query.tag.all (·.admits m.payload)

/-- The memos that a query selects. -/
def select (query : Query) (memos : List Memo) : List Memo :=
  let found := (memos.filter query.admits).drop query.offset
  match query.limit with
  | some limit => found.take limit
  | none => found

end Query

end TaggedMemos
