import TaggedMemos.Forest.Edit
import TaggedMemos.Service.Store

/-!
# Editing a Tag of One Memo

These edits work on the forest of the text. Tag leaves on exactly the given path change, at any
depth, and everything else is written back as it was. The payload stored is that of the edited
forest. A memo that is not known to carry the tag is left alone.
-/

namespace TaggedMemos.Service

open TaggedMemos.Action

/-- The answer to an edit of one memo. -/
structure Retagging where
  /-- The memo. -/
  memo : MemoId
  /-- Whether the memo was written. -/
  changed : Bool
  deriving DecidableEq, Repr

/-- The memo that a name stands for; `everywhere` is the complaint when it stands for all. -/
def resolveUnless (everywhere : Complaint) (name : String) : Action MemoId :=
  match MemoName.ofText? name with
  | some (.single id) => return id
  | some .all => reject everywhere
  | none => reject (.badName name)

/-- Edits the forest of a memo that carries a tag. -/
def retag (id : MemoId) (path : String) (edit : Forest → Edited (List Node))
    (edited : Nat → Occurrence) : Action Retagging := do
  let m ← Store.loadOwned id
  if m.payload.hasTag path then
    let result := edit (← parse m.content)
    let nodes : Forest := result.result
    let content ← write nodes
    Store.update m.id { content := some content, payload := some nodes.payload }
    note (edited result.count)
    return ⟨id, true⟩
  else return ⟨id, false⟩

/-- Renames a tag of one memo. -/
def renameMemoTag (name oldInput newInput : String) : Action Retagging := do
  let id ← resolveUnless .renameEverywhere name
  let old ← requirePath oldInput "old_tag"
  let new ← requirePath newInput "new_tag"
  retag id old (Forest.renameTag old new) (.memoTagRenamed id old new)

/-- Removes a tag from one memo. -/
def deleteMemoTag (name input : String) : Action Retagging := do
  let id ← resolveUnless .deleteEverywhere name
  let path ← requirePath input "tag"
  retag id path (Forest.removeTag path) (.memoTagDeleted id path)

end TaggedMemos.Service
