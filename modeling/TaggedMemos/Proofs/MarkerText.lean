import TaggedMemos.Proofs.PathGrammar
import TaggedMemos.Proofs.Scan

/-!
# Reading a Marker Back

A caller may type any characters in a path, except blanks and number signs. In a text, a tag ends
before the first character that is no tag character. So the marker of a validated path is read as a
tag that goes as far as that, if it goes anywhere, and nothing in the rest is a tag. The marker is
read back as its path if all characters are tag characters, and as a tag on another path, or as no
tag, if there is any other one.

## Main results

* `not_tag_of_mem_scanFrom`: without a number sign there is no tag.
* `scanRun_marker`: what a marker is read as.
* `marker_read_back_iff`: which markers are read back.
-/

namespace TaggedMemos

open Text

/-! ### Parts of a scan -/

section Scan

variable {leaf : Leaf} {skip : Nat} {previous : Option Char} {text plain : List Char}

/-- What is scanned without a number sign ahead gives no tag. -/
theorem not_tag_of_mem_scanFrom (free : '#' ∉ text)
    (member : leaf ∈ scanFrom skip previous plain text) (raw : String) : leaf ≠ .tag raw := by
  rintro rfl
  rcases mem_scanFrom member with ⟨t, same⟩ | ⟨previous', rest, width, suffix, found⟩
  · cases same
  · obtain ⟨written, -, -⟩ := leafAt?_eq_some found
    have sign : '#' ∈ rest.take width := by
      rw [← written]
      exact List.mem_cons_self
    exact free (suffix.subset (List.mem_of_mem_take sign))

/-- Nothing is left of a text that belongs to the leaf found last. -/
theorem scanFrom_of_length_le (whole : text.length ≤ skip) :
    scanFrom skip previous [] text = [] := by
  induction text generalizing skip previous with
  | nil => cases skip <;> rfl
  | cons c text ih =>
      obtain ⟨skip, rfl⟩ : ∃ n, skip = n + 1 :=
        Nat.exists_eq_succ_of_ne_zero (by rintro rfl; simp at whole)
      rw [scanFrom]
      exact ih (by simpa using whole)

end Scan

/-! ### Markers -/

namespace TagPath

variable {path input : String}

/-- The marker of a canonical path has something after its number sign. -/
theorem IsCanonical.withoutSlash_ne_nil (canonical : IsCanonical path) :
    (withoutSlash path).toList ≠ [] := by
  intro empty
  have slash := canonical.toList_eq
  obtain ⟨segments, filled, parts, written⟩ := canonical
  rw [empty, written] at slash
  cases segments with
  | nil => exact filled rfl
  | cons first segments =>
      rw [List.flatMap_cons, List.cons_append, List.cons.injEq, List.append_eq_nil_iff] at slash
      exact (parts first (by simp)).1 slash.2.1

/-- The characters of a marker, after its number sign, that can belong to a tag. -/
def front (path : String) : List Char :=
  (withoutSlash path).toList.takeWhile isTagChar

/-- The tag that a marker opens with, if it opens with one. -/
def frontTag (path : String) : List Leaf :=
  if (front path).isEmpty then [] else [.tag (String.ofList (front path))]

/-- A marker is read as the tag that it opens with, and as what is scanned after it. -/
theorem scanRun_marker (path : String) :
    scanRun false (marker path).toList = frontTag path ++
      scanFrom (front path).length (some '#') (if (front path).isEmpty then ['#'] else [])
        (withoutSlash path).toList := by
  rw [marker, String.toList_ofList, scanRun, frontTag, front]
  generalize (withoutSlash path).toList = name
  by_cases empty : name.takeWhile isTagChar = []
  · have other : leafAt? none ('#' :: name) = none := by
      simp [leafAt?, tagAt?, empty, embedAt?, stripPrefix?]
    simp [scanFrom, other, empty]
  · have tag : leafAt? none ('#' :: name) =
        some (.tag (String.ofList (name.takeWhile isTagChar)),
          (name.takeWhile isTagChar).length + 1) := by
      simp [leafAt?, tagAt?, empty, opensTag]
    simp [scanFrom, tag, empty, textLeaf]

/-- The marker of a path of tag characters is read as one tag. -/
theorem scanRun_marker_of_all (canonical : IsCanonical path)
    (chars : ∀ c ∈ (withoutSlash path).toList, isTagChar c = true) :
    scanRun false (marker path).toList = [.tag (withoutSlash path)] := by
  have whole : front path = (withoutSlash path).toList := List.takeWhile_eq_self_iff.mpr chars
  have filled : (withoutSlash path).toList.isEmpty = false :=
    List.isEmpty_eq_false_iff.mpr canonical.withoutSlash_ne_nil
  have nothing : scanFrom (withoutSlash path).toList.length (some '#') []
      (withoutSlash path).toList = [] := scanFrom_of_length_le (Nat.le_refl _)
  simp [scanRun_marker, frontTag, whole, filled, nothing]

/-- **Which markers are read back.** The marker of a validated path is read as one tag on that path
exactly if the path consists of tag characters. Otherwise a tag on the characters before the first
other one is read, if there are any, and the rest of the marker has no tag. -/
theorem marker_read_back_iff (accepted : validate input = .ok path) :
    ((∃ raw, scanRun false (marker path).toList = [.tag raw] ∧ normalize raw = path) ↔
        ∀ c ∈ path.toList, isTagChar c = true) ∧
      ∃ others, scanRun false (marker path).toList = frontTag path ++ others ∧
        ∀ leaf ∈ others, ∀ raw, leaf ≠ .tag raw := by
  obtain ⟨canonical, chars⟩ := isCanonical_of_validate accepted
  have inside : ∀ c ∈ (withoutSlash path).toList, c ∈ path.toList := fun c member => by
    rw [canonical.toList_eq]
    exact List.mem_cons_of_mem _ member
  have free : '#' ∉ (withoutSlash path).toList := fun sign => (chars _ (inside _ sign)).2 rfl
  refine ⟨⟨?_, fun all => ?_⟩, _, scanRun_marker path, fun _ => not_tag_of_mem_scanFrom free⟩
  · rintro ⟨raw, read, same⟩ c member
    have found : Leaf.tag raw ∈ scanRun false (marker path).toList := by
      rw [read]
      exact List.mem_singleton_self _
    obtain ⟨_, _, -, ⟨-, tag⟩, -⟩ := tag_of_mem_scanRun found
    rw [← same] at member
    rcases of_mem_normalize member with rfl | member
    · decide
    · exact tag c member
  · refine ⟨withoutSlash path, ?_, canonical.normalize_withoutSlash⟩
    exact scanRun_marker_of_all canonical fun c member => all c (inside c member)

/-- A path that is read back, although it was typed in another spelling. -/
theorem marker_read_back_iff_work :
    ∃ raw, scanRun false (marker "/work/p1").toList = [.tag raw] ∧ normalize raw = "/work/p1" := by
  have accepted : validate "work/p1/" = .ok "/work/p1" := by decide +kernel
  have chars : "/work/p1".toList.all isTagChar = true := by decide +kernel
  exact (marker_read_back_iff accepted).1.mpr (List.all_eq_true.mp chars)

/-- A path that a caller may type, and that is read as another one. -/
theorem marker_ends_early :
    validate "a)b" = .ok "/a)b" ∧
      scanRun false (marker "/a)b").toList = [.tag "a", .text ")b"] ∧
      normalize "a" ≠ "/a)b" := by
  decide +kernel

end TagPath

end TaggedMemos
