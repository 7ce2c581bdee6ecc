import TaggedMemos.Memo.Memo

/-!
# Settings

What can be set for a data directory, with the values that hold when nothing is set.
-/

namespace TaggedMemos

/-- The settings of a data directory. -/
structure Settings where
  /-- The number of characters that a memo may have at most. -/
  contentLimit : Nat := 8192
  /-- The caller, where none is named. -/
  defaultUser : UserId := 1
  /-- The number of memos that a rebuild takes from the store at a time. -/
  rebuildBatch : Nat := 100
  deriving DecidableEq, Repr, Inhabited

end TaggedMemos
