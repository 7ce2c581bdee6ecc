import TaggedMemos.Proofs.InSync
import TaggedMemos.Proofs.TagText

/-!
# Editing the Tags of One Memo

A tag of a single memo is renamed or removed in the forest of its text, and the payload stored is
that of the edited forest. An edit is a value of its own here, so that what holds of renaming and of
removing is said once. What it makes of the payload is told by the payload alone.

## Main results

* `TagEdit.payload_forest`: what an edit makes of a payload.
* `Request.Edits`: the requests that edit the tags of one memo.
-/

namespace TaggedMemos

/-- An edit of the tags of one memo. -/
inductive TagEdit where
  /-- A tag is removed. -/
  | remove (path : String)
  /-- A tag gets another path. -/
  | rename (old new : String)
  deriving DecidableEq, Repr

namespace TagEdit

/-- The tag that is edited. -/
def path : TagEdit → String
  | remove path => path
  | rename old _ => old

/-- A forest after an edit. -/
def forest : TagEdit → Forest → Forest
  | remove path, nodes => (Forest.removeTag path nodes).result
  | rename old new, nodes => (Forest.renameTag old new nodes).result

/-- The tags after an edit. -/
def tags : TagEdit → List String → List String
  | remove path, tags => tags.filter (· != path)
  | rename old new, tags => firsts (tags.map (renamedPath old new))

/-- A payload after an edit. -/
def payload (edit : TagEdit) (payload : Payload) : Payload :=
  { payload with tags := edit.tags payload.tags }

/-- An edit with a new path that is read as it is written. -/
def IsCanonical : TagEdit → Prop
  | remove _ => True
  | rename _ new => TagPath.IsCanonical new

/-- A renamed tag is among the tags after the edit. -/
theorem mem_tags_rename {old new : String} {tags : List String} (carried : old ∈ tags) :
    new ∈ (TagEdit.rename old new).tags tags :=
  mem_firsts.mpr (List.mem_map.mpr ⟨old, carried, by simp [renamedPath]⟩)

/-- The payload of an edited forest comes from the payload before. -/
theorem payload_forest {edit : TagEdit} (canonical : edit.IsCanonical) (nodes : Forest) :
    (edit.forest nodes).payload = edit.payload nodes.payload := by
  cases edit with
  | remove path => exact Forest.payload_removeTag path nodes
  | rename old new => exact Forest.payload_renameTag canonical.normalize_withoutSlash nodes

end TagEdit

/-- A request for an edit of the memo with an identifier, with arguments that are accepted. -/
inductive Request.Edits : Request → MemoId → TagEdit → Prop
  /-- A tag is removed. -/
  | remove {name input path : String} {id : MemoId}
      (single : MemoName.ofText? name = some (.single id))
      (accepted : TagPath.validate input = .ok path) :
      Edits (.deleteMemoTag name input) id (.remove path)
  /-- A tag is renamed. -/
  | rename {name oldInput newInput old new : String} {id : MemoId}
      (single : MemoName.ofText? name = some (.single id))
      (accepted : TagPath.validate oldInput = .ok old)
      (accepted' : TagPath.validate newInput = .ok new) :
      Edits (.renameMemoTag name oldInput newInput) id (.rename old new)

/-- The new path of a request was validated, so it is read as it is written. -/
theorem Request.Edits.isCanonical {request : Request} {id : MemoId} {edit : TagEdit}
    (edits : request.Edits id edit) : edit.IsCanonical := by
  cases edits with
  | remove _ _ => trivial
  | rename _ _ accepted' => exact (TagPath.isCanonical_of_validate accepted').1

/-- A memo with the identifier 1 that belongs to the user 1. -/
def soleMemo (content : String) (tags : List String) : Memo :=
  { id := .ofNat 1, creator := 1, content, payload := { tags }, created := default,
    updated := default }

/-- A call of the user 1. -/
def plainCall (request : Request) : Call :=
  ⟨{ user := 1, freshId := .ofNat 2, now := default }, request⟩

/-- A call of the user 1, to whom every text is a line of plain text. -/
def plainTextCall (request : Request) : Call :=
  ⟨{ user := 1, freshId := .ofNat 2, now := default,
     parser := .always fun text => Forest.ofEvents text (plainEvents text) }, request⟩

end TaggedMemos
