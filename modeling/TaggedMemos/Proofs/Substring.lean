import TaggedMemos.Text.Substring

/-!
# Prefixes and Occurrences

What the searches in a text find, said as divisions of the text.

## Main results

* `stripPrefix?_eq_some`: what follows a prefix.
* `before?_eq_some_iff`: what stands before the first occurrence of a part.
-/

namespace TaggedMemos.Text

variable {start part text before rest : List Char}

/-- A prefix is stripped exactly from the texts that go on after it. -/
theorem stripPrefix?_eq_some : stripPrefix? start text = some rest ↔ text = start ++ rest := by
  induction start, text using stripPrefix?.induct with
  | case1 text => simp [stripPrefix?]
  | case2 p start => simp [stripPrefix?]
  | case3 p start text ih => simpa [stripPrefix?] using ih
  | case4 p start c text other =>
      simp only [stripPrefix?, other, if_false, reduceCtorEq, List.cons_append, List.cons.injEq,
        false_iff, not_and]
      exact fun same => absurd same.symm other

/-- What a text has before the first occurrence of `part`: no shorter beginning of the text goes
on with `part`. -/
def IsBefore (part before text : List Char) : Prop :=
  before ++ part <+: text ∧ ∀ other, other ++ part <+: text → before.length ≤ other.length

/-- The search for an occurrence finds the first one, if there is any. -/
theorem before?_eq_some_iff : before? part text = some before ↔ IsBefore part before text := by
  induction text generalizing before with
  | nil =>
      rw [before?, IsBefore, List.prefix_nil, List.append_eq_nil_iff]
      constructor
      · intro found
        split at found
        · next empty =>
            obtain rfl := Option.some.inj found
            exact ⟨⟨rfl, List.isEmpty_iff.mp empty⟩, fun _ _ => Nat.zero_le _⟩
        · cases found
      · rintro ⟨⟨rfl, empty⟩, -⟩
        rw [if_pos (List.isEmpty_iff.mpr empty)]
  | cons c text ih =>
      by_cases here : part <+: c :: text
      · rw [before?, if_pos (List.isPrefixOf_iff_prefix.mpr here), Option.some.injEq]
        constructor
        · rintro rfl
          exact ⟨here, fun _ _ => Nat.zero_le _⟩
        · intro first
          exact (List.length_eq_zero_iff.mp (Nat.le_zero.mp (first.2 [] here))).symm
      · rw [before?, if_neg (fun begins => here (List.isPrefixOf_iff_prefix.mp begins)),
          Option.map_eq_some_iff]
        constructor
        · rintro ⟨tail, found, rfl⟩
          obtain ⟨whole, first⟩ := ih.mp found
          refine ⟨List.cons_prefix_cons.mpr ⟨rfl, whole⟩, fun other whole' => ?_⟩
          cases other with
          | nil => exact absurd whole' here
          | cons c' other =>
              exact Nat.succ_le_succ (first other (List.cons_prefix_cons.mp whole').2)
        · rintro ⟨whole, first⟩
          cases before with
          | nil => exact absurd whole here
          | cons c' before =>
              obtain ⟨rfl, whole'⟩ := List.cons_prefix_cons.mp whole
              refine ⟨before, ih.mpr ⟨whole', fun other whole' => ?_⟩, rfl⟩
              exact Nat.le_of_succ_le_succ
                (first (c' :: other) (List.cons_prefix_cons.mpr ⟨rfl, whole'⟩))

/-- A search goes past what cannot begin an occurrence. -/
theorem before?_append {c : Char} {front : List Char} (free : c ∉ front) :
    before? (c :: part) (front ++ rest) = (before? (c :: part) rest).map (front ++ ·) := by
  induction front with
  | nil => simp
  | cons d front ih =>
      rw [List.mem_cons, not_or] at free
      have other : (c :: part).isPrefixOf (d :: (front ++ rest)) = false := by
        simp [List.isPrefixOf, free.1]
      rw [List.cons_append, before?, other, ih free.2]
      simp [Function.comp_def]

/-- What is before the first occurrence does not depend on what is behind it. -/
theorem IsBefore.append_congr {rest' : List Char}
    (first : IsBefore part before (before ++ part ++ rest)) :
    IsBefore part before (before ++ part ++ rest') := by
  refine ⟨List.prefix_append _ _, fun other here => Nat.le_of_not_lt fun shorter => ?_⟩
  have within : other ++ part <+: before ++ part := by
    refine List.prefix_of_prefix_length_le here (List.prefix_append _ _) ?_
    rw [List.length_append, List.length_append]
    omega
  have early := first.2 other (within.trans (List.prefix_append _ _))
  exact absurd shorter (Nat.not_lt_of_le early)

end TaggedMemos.Text
