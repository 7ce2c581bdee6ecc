import TaggedMemos.Proofs.Path

/-!
# Normalized Paths

A tag may be written with slashes in all places: in front, at the end, and more than one of them
between two segments. Such spellings have the same segments and mean the same tag. Normalization
picks one of them for each list of segments, the canonical path, or `/` where there are no segments.
So to compare two tags it is enough to compare their normalized paths.

The marker of a tag is made from the normalized path without its first slash, and is read back as
that path. This holds of `/` too, whose marker is the number sign alone.

## Main results

* `pieces_written`: cutting what is written for some segments gives these segments.
* `normalize_eq_iff`: which paths have the same normalized path.
* `normalize_eq_self_iff`: which paths are normalized already.
* `normalize_is_canonical`: normalization as the choice of one path for each list of segments.
-/

namespace TaggedMemos.TagPath

open Text

variable {raw raw' path : String} {parts : List (List Char)}

/-! ### Segments of normalized paths -/

/-- Cutting what is written for some segments gives these segments, also if there are none. -/
theorem pieces_written (segments : ∀ s ∈ parts, IsSegment s) : pieces (written parts) = parts := by
  cases parts with
  | nil => rfl
  | cons first parts => exact pieces_flatMap segments

/-- Normalization keeps the segments. -/
theorem pieces_normalize (raw : String) : pieces (normalize raw).toList = pieces raw.toList := by
  rw [normalize, String.toList_ofList]
  exact pieces_written fun s member => (of_mem_pieces member).1

/-- Paths have the same segments if they are cut into the same pieces. -/
theorem segments_eq_iff : segments raw = segments raw' ↔ pieces raw.toList = pieces raw'.toList :=
  List.map_inj_right fun _ _ same => String.ofList_injective same

/-- Normalization keeps the segments. -/
theorem segments_normalize (raw : String) : segments (normalize raw) = segments raw :=
  segments_eq_iff.mpr (pieces_normalize raw)

/-- **Paths have the same normalized path if they have the same segments**, and only then, since the
segments can be read off the normalized path. -/
theorem normalize_eq_iff : normalize raw = normalize raw' ↔ segments raw = segments raw' := by
  constructor
  · intro same
    rw [← segments_normalize raw, same, segments_normalize]
  · intro same
    rw [normalize, normalize, segments_eq_iff.mp same]

/-- A normalized path is normalized. -/
theorem normalize_normalize (raw : String) : normalize (normalize raw) = normalize raw :=
  normalize_eq_iff.mpr (segments_normalize raw)

/-! ### Paths that are normalized -/

/-- A canonical path is normalized already. -/
theorem IsCanonical.normalize_eq (canonical : IsCanonical path) : normalize path = path := by
  obtain ⟨parts, filled, segments, whole⟩ := canonical
  rw [normalize, whole, pieces_flatMap segments, written, ← whole, String.ofList_toList]
  exact filled

/-- **Which paths are normalized already**: the canonical ones, and the path without segments. -/
theorem normalize_eq_self_iff : normalize path = path ↔ path = "/" ∨ IsCanonical path := by
  constructor
  · intro fixed
    rw [← fixed]
    exact normalize_cases path
  · rintro (rfl | canonical)
    · rfl
    · exact canonical.normalize_eq

/-- The paths that normalization yields are those that it leaves as they are. -/
theorem exists_normalize_eq_iff : (∃ raw, normalize raw = path) ↔ normalize path = path := by
  constructor
  · rintro ⟨raw, rfl⟩
    exact normalize_normalize raw
  · exact fun fixed => ⟨path, fixed⟩

/-- What follows the number sign of a marker. -/
theorem marker_eq (path : String) : marker path = "#" ++ withoutSlash path := by
  rw [← String.toList_inj, marker, String.toList_ofList, String.toList_append]
  rfl

/-- The marker of a path is read as that path exactly if the path is normalized. -/
theorem normalize_withoutSlash_iff :
    normalize (withoutSlash path) = path ↔ normalize path = path := by
  constructor
  · intro read
    exact exists_normalize_eq_iff.mp ⟨_, read⟩
  · intro fixed
    rcases normalize_eq_self_iff.mp fixed with rfl | canonical
    · rfl
    · exact canonical.normalize_withoutSlash

/-- **Normalized paths are canonical forms.** Normalization keeps the segments of a path and does
nothing to a normalized path. What it yields are the paths with a slash in front of each of their
segments, and `/`. Two paths are normalized to the same one exactly if they have the same segments.
The paths that are read back from their marker, without its number sign, are the normalized ones. -/
theorem normalize_is_canonical :
    (∀ raw, segments (normalize raw) = segments raw) ∧
    (∀ raw, normalize (normalize raw) = normalize raw) ∧
    (∀ path, (∃ raw, normalize raw = path) ↔ path = "/" ∨ IsCanonical path) ∧
    (∀ raw raw', normalize raw = normalize raw' ↔ segments raw = segments raw') ∧
    ∀ path, (∃ text, marker path = "#" ++ text ∧ normalize text = path) ↔
      path = "/" ∨ IsCanonical path := by
  refine ⟨segments_normalize, normalize_normalize, fun path => ?_, fun _ _ => normalize_eq_iff,
    fun path => ?_⟩
  · rw [exists_normalize_eq_iff, normalize_eq_self_iff]
  · rw [← normalize_eq_self_iff, ← normalize_withoutSlash_iff]
    constructor
    · rintro ⟨text, marked, read⟩
      obtain rfl : withoutSlash path = text := by
        have same := congrArg String.toList ((marker_eq path).symm.trans marked)
        rw [String.toList_append, String.toList_append] at same
        exact String.toList_inj.mp (List.append_cancel_left same)
      exact read
    · exact fun read => ⟨_, marker_eq path, read⟩

/-- Slashes in all places, and nothing else. -/
example : normalize "//work///p1/" = "/work/p1" ∧ normalize "///" = "/" ∧ marker "/" = "#" := by
  decide +kernel

end TaggedMemos.TagPath
