import Mathlib.Data.List.Infix
import Mathlib.Logic.Relation
import TaggedMemos.Proofs.Path

/-!
# Relations between Canonical Paths

Whether one path stands below another one, or directly below it, is tested on the text, and so is
the parent of a path found. A text may begin like another one in the middle of a segment, as that of
`/workshop` begins with that of `/work`. On canonical paths the tests are nevertheless relations
between the lists of segments: they look for a slash after the common beginning, and no segment has
one.

Below a path are the paths whose segments begin with its segments. This is a partial order, and its
steps are those from a path to its parent, which is the path without the last segment.

## Main results

* `CanonicalPath.isSameOrBelow_iff_segments`: the paths below another one have its segments first.
* `CanonicalPath.isDirectChild_iff_segments`: the paths directly below it have one segment more.
* `IsCanonical.parent?`: the parent of a canonical path is canonical.
* `isSameOrBelow_iff_reflTransGen`: the way from a path to those above it.
* `relations_are_segmentwise`: the tests on the text are the relations between the segments.
-/

namespace TaggedMemos.TagPath

open Text Relation

variable {path parent : String}

/-! ### Canonical paths and their segments -/

/-- A path in canonical form. -/
def CanonicalPath :=
  { path : String // IsCanonical path }

namespace CanonicalPath

variable {a b : CanonicalPath} {parts : List (List Char)}

/-- The segments of a canonical path, at least one. -/
theorem pieces_ne_nil (a : CanonicalPath) : pieces a.1.toList ≠ [] := by
  obtain ⟨parts, filled, segments, written⟩ := a.2
  rwa [written, pieces_flatMap segments]

/-- A canonical path has a slash in front of each of its segments. -/
theorem toList_eq (a : CanonicalPath) : a.1.toList = (pieces a.1.toList).flatMap ('/' :: ·) := by
  obtain ⟨parts, -, segments, written⟩ := a.2
  rw [written, pieces_flatMap segments]

/-- Canonical paths with the same segments are the same. -/
theorem eq_of_pieces (same : pieces a.1.toList = pieces b.1.toList) : a = b :=
  Subtype.ext (String.toList_inj.mp (by rw [a.toList_eq, same, ← b.toList_eq]))

/-- The canonical path with some segments. -/
def ofPieces (parts : List (List Char)) (filled : parts ≠ [])
    (segments : ∀ s ∈ parts, IsSegment s) : CanonicalPath :=
  ⟨String.ofList (parts.flatMap ('/' :: ·)), parts, filled, segments, String.toList_ofList⟩

/-- A path made of segments has these pieces. -/
theorem pieces_ofPieces (filled : parts ≠ []) (segments : ∀ s ∈ parts, IsSegment s) :
    pieces (ofPieces parts filled segments).1.toList = parts := by
  rw [ofPieces, String.toList_ofList, pieces_flatMap segments]

/-- Segments continue others exactly if the pieces do. -/
theorem segments_prefix_iff :
    segments a.1 <+: segments b.1 ↔ pieces a.1.toList <+: pieces b.1.toList :=
  List.prefix_map_iff_of_injective fun _ _ same => String.ofList_injective same

/-! ### The tests on the text -/

/-- The paths at or below a canonical path are those that have its segments first. -/
theorem isSameOrBelow_iff_segments (a b : CanonicalPath) :
    isSameOrBelow a.1 b.1 = true ↔ segments a.1 <+: segments b.1 := by
  rw [isSameOrBelow_iff, segments_prefix_iff]
  constructor
  · rintro (same | ⟨rest, below⟩)
    · rw [same]
    · rw [← below, List.append_assoc, List.singleton_append, pieces_append]
      exact List.prefix_append _ _
  · rintro ⟨more, whole⟩
    cases more with
    | nil => exact .inl (congrArg Subtype.val (eq_of_pieces (by simpa using whole)).symm)
    | cons next more =>
        refine .inr ⟨next ++ more.flatMap ('/' :: ·), ?_⟩
        rw [b.toList_eq, ← whole, List.flatMap_append, ← a.toList_eq]
        simp

/-- The paths directly below a canonical path have its segments and one more. -/
theorem isDirectChild_iff_pieces (a b : CanonicalPath) :
    isDirectChild a.1 b.1 = true ↔ ∃ last, pieces b.1.toList = pieces a.1.toList ++ [last] := by
  rw [isDirectChild_iff]
  constructor
  · rintro ⟨last, whole, part⟩
    exact ⟨last, by rw [whole, pieces_append, pieces_of_isSegment part]⟩
  · rintro ⟨last, whole⟩
    have part : last ∈ pieces b.1.toList := by simp [whole]
    refine ⟨last, ?_, (of_mem_pieces part).1⟩
    rw [b.toList_eq, whole, List.flatMap_append, ← a.toList_eq, List.flatMap_singleton]

/-- A direct child has one segment more. -/
theorem isDirectChild_iff_segments (a b : CanonicalPath) :
    isDirectChild a.1 b.1 = true ↔ ∃ last, segments b.1 = segments a.1 ++ [last] := by
  rw [isDirectChild_iff_pieces]
  constructor
  · rintro ⟨last, whole⟩
    exact ⟨String.ofList last, by simp [segments, whole]⟩
  · rintro ⟨last, whole⟩
    refine ⟨last.toList, List.map_injective_iff.mpr (fun _ _ => String.ofList_injective) ?_⟩
    rw [List.map_append, List.map_singleton, String.ofList_toList]
    exact whole

/-- The parent of a canonical path is the canonical path that it is directly below. -/
theorem parent?_iff_isDirectChild (a b : CanonicalPath) :
    TagPath.parent? b.1 = some a.1 ↔ isDirectChild a.1 b.1 = true :=
  (isDirectChild_iff_parent? a.2.isTrimmed.1 b.2.isTrimmed.2).symm

end CanonicalPath

/-! ### Parents of parents -/

/-- One path is the parent of another one. -/
def IsParentOf (above path : String) : Prop :=
  parent? path = some above

/-- The parent of a canonical path is canonical. -/
theorem IsCanonical.parent? (canonical : IsCanonical path)
    (above : TagPath.parent? path = some parent) : IsCanonical parent := by
  obtain ⟨filled, last, whole, free⟩ := TagPath.parent?_eq_some above
  have ends : last ≠ [] := by
    rintro rfl
    exact canonical.getLast?_ne (by rw [whole, List.getLast?_concat])
  have joined := CanonicalPath.toList_eq ⟨path, canonical⟩
  simp only [whole, pieces_append, pieces_of_isSegment ⟨ends, free⟩, List.flatMap_append,
    List.flatMap_singleton, List.append_cancel_right_eq] at joined
  refine ⟨pieces parent.toList, fun none => filled ?_, fun s member => (of_mem_pieces member).1,
    joined⟩
  rw [none, List.flatMap_nil] at joined
  exact String.toList_inj.mp joined

/-- A path with more segments is reached by adding one of them after the other. -/
theorem reflTransGen_of_pieces {a b : CanonicalPath} {more : List (List Char)}
    (longer : pieces b.1.toList = pieces a.1.toList ++ more) :
    ReflTransGen IsParentOf a.1 b.1 := by
  -- The last segment is the last step of the way, so segments are taken from the end.
  induction more using List.reverseRecOn generalizing b with
  | nil =>
      rw [List.append_nil] at longer
      rw [CanonicalPath.eq_of_pieces longer]
  | append_singleton more last ih =>
      rw [← List.append_assoc] at longer
      have filled : pieces a.1.toList ++ more ≠ [] := by simp [a.pieces_ne_nil]
      have segments : ∀ s ∈ pieces a.1.toList ++ more, IsSegment s := fun s member =>
        (of_mem_pieces (longer ▸ List.mem_append_left [last] member)).1
      have between := CanonicalPath.pieces_ofPieces filled segments
      refine (ih between).tail ((CanonicalPath.parent?_iff_isDirectChild _ b).mpr ?_)
      exact (CanonicalPath.isDirectChild_iff_pieces _ b).mpr ⟨last, by rw [between, longer]⟩

/-- A path is at or below all that is reached from it by going to parents. -/
theorem isSameOrBelow_of_reflTransGen {a : CanonicalPath} (canonical : IsCanonical path)
    (reached : ReflTransGen IsParentOf a.1 path) : isSameOrBelow a.1 path = true := by
  induction reached with
  | refl => exact isSameOrBelow_iff.mpr (.inl rfl)
  | @tail middle path _ above ih =>
      let c : CanonicalPath := ⟨middle, canonical.parent? above⟩
      let b : CanonicalPath := ⟨path, canonical⟩
      have before := (CanonicalPath.isSameOrBelow_iff_segments a c).mp (ih c.2)
      have direct := (CanonicalPath.parent?_iff_isDirectChild c b).mp above
      obtain ⟨last, longer⟩ := (CanonicalPath.isDirectChild_iff_segments c b).mp direct
      exact (CanonicalPath.isSameOrBelow_iff_segments a b).mpr (before.trans ⟨[last], longer.symm⟩)

/-- A path is at or below another exactly if it is reached by going down to children. -/
theorem isSameOrBelow_iff_reflTransGen (a b : CanonicalPath) :
    isSameOrBelow a.1 b.1 = true ↔ ReflTransGen IsParentOf a.1 b.1 := by
  refine ⟨fun below => ?_, isSameOrBelow_of_reflTransGen b.2⟩
  rw [CanonicalPath.isSameOrBelow_iff_segments, CanonicalPath.segments_prefix_iff] at below
  obtain ⟨more, longer⟩ := below
  exact reflTransGen_of_pieces longer.symm

/-- On canonical paths, to be at or below another one is a partial order. -/
theorem isPartialOrder_isSameOrBelow :
    IsPartialOrder CanonicalPath (fun a b => isSameOrBelow a.1 b.1 = true) where
  refl a := isSameOrBelow_iff.mpr (.inl rfl)
  trans a b c := by
    simp only [CanonicalPath.isSameOrBelow_iff_segments]
    exact List.IsPrefix.trans
  antisymm a b := by
    simp only [CanonicalPath.isSameOrBelow_iff_segments, CanonicalPath.segments_prefix_iff]
    exact fun below above =>
      CanonicalPath.eq_of_pieces (below.eq_of_length_le above.length_le)

/-- **The tests on the text are the relations between the segments.** A canonical path is at or
below another one if its segments begin with those of that one; it is directly below it if there is
one segment more, which is the case exactly if that one is its parent. So to be at or below another
path is a partial order, and it is the same as to be reached from the path by a way through
parents. -/
theorem relations_are_segmentwise :
    (∀ a b : CanonicalPath,
      (isSameOrBelow a.1 b.1 = true ↔ segments a.1 <+: segments b.1) ∧
      (isDirectChild a.1 b.1 = true ↔ ∃ last, segments b.1 = segments a.1 ++ [last]) ∧
      (parent? b.1 = some a.1 ↔ isDirectChild a.1 b.1 = true)) ∧
    IsPartialOrder CanonicalPath (fun a b => isSameOrBelow a.1 b.1 = true) ∧
    ∀ a b : CanonicalPath, isSameOrBelow a.1 b.1 = true ↔ ReflTransGen IsParentOf a.1 b.1 := by
  refine ⟨fun a b => ⟨?_, ?_, ?_⟩, isPartialOrder_isSameOrBelow, isSameOrBelow_iff_reflTransGen⟩
  · exact a.isSameOrBelow_iff_segments b
  · exact a.isDirectChild_iff_segments b
  · exact a.parent?_iff_isDirectChild b

/-- A common beginning does not count if it ends inside a segment. -/
example : isSameOrBelow "/work" "/work/a/b" = true ∧ isSameOrBelow "/work" "/workshop" = false := by
  decide +kernel

end TaggedMemos.TagPath
