import Mathlib.Data.String.Basic

/-!
# Paths in Order

Paths are put in order as texts, character by character. A path comes before all those that go on
from it, and what comes between goes on from it too. So the paths that begin with a given text stand
together in a list in ascending order, whatever their siblings are called, and can be found by going
on from the place of that text for as long as they begin with it.

## Main results

* `lt_of_longer`: a path comes before those that go on from it.
* `longer_of_between`: what stands between the two.
* `takeWhile_dropWhile_eq_filter`: the paths that begin with a text stand together.
-/

namespace TaggedMemos

/-! ### Two paths and what is between them -/

section Order

variable {above path other : String} {c : Char} {rest : List Char}

/-- A path comes after those that it goes on from. -/
theorem lt_of_longer (longer : path.toList = above.toList ++ c :: rest) : above < path := by
  have goesOn : above.toList ++ [] < above.toList ++ c :: rest :=
    List.append_left_lt (List.nil_lt_cons c rest)
  rwa [List.append_nil, ← longer, ← String.lt_iff_toList_lt] at goesOn

/-- Of two paths that go on from another one, the one with the smaller character comes first. -/
theorem lt_of_lt_char {c' : Char} {rest' : List Char} (less : c < c')
    (longer : other.toList = above.toList ++ c :: rest)
    (longer' : path.toList = above.toList ++ c' :: rest') : other < path := by
  rw [String.lt_iff_toList_lt, longer, longer']
  exact List.append_left_lt (List.cons_lt_cons_iff.mpr (.inl less))

/-- What lies between a text and a longer one continues the shorter, with a character no greater. -/
theorem exists_append_of_between {xs ys : List Char} (after : xs < ys)
    (before : ys < xs ++ c :: rest) : ∃ c' rest', ys = xs ++ c' :: rest' ∧ c' ≤ c := by
  induction xs generalizing ys with
  | nil =>
      cases ys with
      | nil => exact absurd after (List.lt_irrefl [])
      | cons y ys =>
          refine ⟨y, ys, rfl, ?_⟩
          rcases List.cons_lt_cons_iff.mp before with less | ⟨same, -⟩
          · exact less.le
          · exact same.le
  | cons x xs ih =>
      cases ys with
      | nil => exact absurd after (List.not_lt_nil _)
      | cons y ys =>
          rcases List.cons_lt_cons_iff.mp after with less | ⟨rfl, after'⟩
          · rcases List.cons_lt_cons_iff.mp before with less' | ⟨same, -⟩
            · exact absurd less' less.asymm
            · exact absurd same less.ne'
          · rcases List.cons_lt_cons_iff.mp before with less' | ⟨-, before'⟩
            · exact absurd less' (lt_irrefl _)
            · obtain ⟨c', rest', rfl, small⟩ := ih after' before'
              exact ⟨c', rest', rfl, small⟩

/-- Between a path and one that goes on from it stand only paths that go on from it, with a
character that is not greater. -/
theorem longer_of_between (longer : path.toList = above.toList ++ c :: rest) (after : above < other)
    (before : other < path) : ∃ c' rest', other.toList = above.toList ++ c' :: rest' ∧ c' ≤ c := by
  rw [String.lt_iff_toList_lt] at after before
  exact exists_append_of_between after (longer ▸ before)

/-- A path below another one has it as its parent, or its parent is below it too. -/
theorem eq_or_below_of_parent {parent : String} {last : List Char}
    (below : other.toList = above.toList ++ '/' :: rest)
    (split : other.toList = parent.toList ++ '/' :: last) (free : '/' ∉ last) :
    parent = above ∨ ∃ rest', parent.toList = above.toList ++ '/' :: rest' := by
  rw [below] at split
  rcases List.append_eq_append_iff.mp split with ⟨more, longer, tail⟩ | ⟨more, shorter, tail⟩
  · cases more with
    | nil => exact .inl (String.toList_inj.mp (by simpa using longer))
    | cons c more =>
        obtain ⟨rfl, -⟩ := List.cons.inj tail
        exact .inr ⟨more, longer⟩
  · cases more with
    | nil => exact .inl (String.toList_inj.mp (by simpa using shorter.symm))
    | cons c more =>
        obtain ⟨-, tail⟩ := List.cons.inj tail
        exact absurd (tail ▸ List.mem_append_right more List.mem_cons_self) free

end Order

/-! ### Paths that begin with a text -/

section Together

variable {start path later : String} {paths : List String}

/-- Where all that fits comes first, taking while it fits misses nothing. -/
theorem takeWhile_eq_filter {p : String → Bool}
    (first : paths.Pairwise fun path later => p later = true → p path = true) :
    paths.takeWhile p = paths.filter p := by
  induction paths with
  | nil => rfl
  | cons path paths ih =>
      obtain ⟨before, first⟩ := List.pairwise_cons.mp first
      by_cases fits : p path = true
      · rw [List.takeWhile_cons_of_pos fits, List.filter_cons_of_pos fits, ih first]
      · have none : paths.filter p = [] :=
          List.filter_eq_nil_iff.mpr fun later member fits' => fits (before later member fits')
        rw [List.takeWhile_cons_of_neg fits, List.filter_cons_of_neg fits, none]

/-- Where all that is to be left out comes first, dropping it leaves nothing of it behind. -/
theorem dropWhile_eq_filter {p : String → Bool}
    (first : paths.Pairwise fun path later => p later = true → p path = true) :
    paths.dropWhile p = paths.filter fun path => !p path := by
  induction paths with
  | nil => rfl
  | cons path paths ih =>
      obtain ⟨before, first⟩ := List.pairwise_cons.mp first
      by_cases fits : p path = true
      · rw [List.dropWhile_cons_of_pos fits, List.filter_cons_of_neg (by simp [fits]), ih first]
      · have all : ∀ later ∈ paths, (!p later) = true := fun later member => by
          simpa using fun fits' => fits (before later member fits')
        rw [List.dropWhile_cons_of_neg fits, List.filter_cons_of_pos (by simp [fits]),
          List.filter_eq_self.mpr all]

/-- A path is not before what it begins with. -/
theorem le_of_prefix (begins : start.toList <+: path.toList) : start ≤ path := by
  obtain ⟨rest, whole⟩ := begins
  cases rest with
  | nil => exact (String.toList_inj.mp (by simpa using whole)).le
  | cons c rest => exact (lt_of_longer whole.symm).le

/-- What comes no earlier than a text, and before a path that begins with it, begins with it. -/
theorem prefix_of_between (from_start : start ≤ path) (before : path < later)
    (begins : start.toList <+: later.toList) : start.toList <+: path.toList := by
  rcases from_start.eq_or_lt with rfl | after
  · exact List.prefix_refl _
  · obtain ⟨rest, whole⟩ := begins
    cases rest with
    | nil =>
        obtain rfl : start = later := String.toList_inj.mp (by simpa using whole)
        exact absurd before after.asymm
    | cons c rest =>
        obtain ⟨c', rest', longer, -⟩ := longer_of_between whole.symm after before
        exact ⟨c' :: rest', longer.symm⟩

/-- **The paths that begin with a text stand together.** In ascending order they are met by going on
from the place of the text up to the first path that does not begin with it. -/
theorem takeWhile_dropWhile_eq_filter (sorted : paths.Pairwise (· < ·)) (start : String) :
    ((paths.dropWhile (· < start)).takeWhile fun path => start.toList.isPrefixOf path.toList) =
      paths.filter fun path => start.toList.isPrefixOf path.toList := by
  have onward : paths.dropWhile (· < start) = paths.filter fun path => !decide (path < start) :=
    dropWhile_eq_filter (sorted.imp fun less early => by
      simpa using less.trans (of_decide_eq_true early))
  have together : (paths.filter fun path => !decide (path < start)).Pairwise fun path later =>
      start.toList.isPrefixOf later.toList = true → start.toList.isPrefixOf path.toList = true := by
    refine (sorted.filter _).imp_of_mem fun member _ less begins => ?_
    rw [List.isPrefixOf_iff_prefix] at begins ⊢
    have late := (List.mem_filter.mp member).2
    rw [Bool.not_eq_true', decide_eq_false_iff_not, not_lt] at late
    exact prefix_of_between late less begins
  rw [onward, takeWhile_eq_filter together, List.filter_filter]
  refine List.filter_congr fun path _ => ?_
  rw [Bool.eq_iff_iff, Bool.and_eq_true, and_iff_left_iff_imp, List.isPrefixOf_iff_prefix]
  intro begins
  rw [Bool.not_eq_true', decide_eq_false_iff_not, not_lt]
  exact le_of_prefix begins

end Together

end TaggedMemos
