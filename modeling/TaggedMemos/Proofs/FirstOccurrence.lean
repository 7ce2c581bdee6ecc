import Mathlib.Data.List.Induction
import Mathlib.Data.List.Nodup

/-!
# First Occurrences

Tags are put together from several places and kept where they come first: the tags of a forest, the
memos of an entry, the paths of a report. Each time an element is added at the end of a list that
lacks it, and what comes of this is the list of all elements without duplicates.

## Main results

* `eraseDups_concat`: what one more element adds.
* `nodup_eraseDups`, `eraseDups_eq_self`: a list without duplicates has none, and may be one
  already.
-/

namespace TaggedMemos

variable {α : Type} [DecidableEq α] {xs : List α}

/-- One more element is added at the end, unless it came before. -/
theorem eraseDups_concat (xs : List α) (x : α) :
    (xs ++ [x]).eraseDups = if x ∈ xs then xs.eraseDups else xs.eraseDups ++ [x] := by
  rw [List.eraseDups_append]
  by_cases known : x ∈ xs
  · simp [List.removeAll, known]
  · simp [List.removeAll, known, List.eraseDups_cons]

/-- Nothing occurs twice after duplicates are erased. -/
theorem nodup_eraseDups (xs : List α) : xs.eraseDups.Nodup := by
  induction xs using List.reverseRecOn with
  | nil => exact List.nodup_nil
  | append_singleton xs x ih =>
      rw [eraseDups_concat]
      split
      · exact ih
      · next new => simpa using ih.concat (mt List.mem_eraseDups.mp new)

/-- A list without duplicates has none to erase. -/
theorem eraseDups_eq_self (once : xs.Nodup) : xs.eraseDups = xs := by
  induction xs using List.reverseRecOn with
  | nil => rfl
  | append_singleton xs x ih =>
      obtain ⟨once, -, apart⟩ := List.nodup_append.mp once
      have new : x ∉ xs := fun known => apart x known x List.mem_cons_self rfl
      rw [eraseDups_concat, if_neg new, ih once]

end TaggedMemos
