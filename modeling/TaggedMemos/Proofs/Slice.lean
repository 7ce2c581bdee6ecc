import TaggedMemos.Text.Offset

/-!
# Slices at Byte Offsets

What `cutAt?` and `slice` give, said without their recursion. A cut at an offset is the only
division of a text whose first part has that many bytes. Offsets where a text can be cut are its
boundaries, and between boundaries slices behave as intervals do.

## Main results

* `cutAt?_eq_some`: a cut is a division of the text at an offset.
* `exists_slice`: a slice between boundaries is the middle of a division into three.
* `slice_append`: slices that meet make up one slice.
-/

namespace TaggedMemos.Text

variable {cs x y : List Char} {a b c n : Nat}

/-! ### Lengths in bytes -/

/-- Two texts have the bytes of both. -/
@[simp] theorem byteLength_append (x y : List Char) :
    byteLength (x ++ y) = byteLength x + byteLength y := by
  induction x with
  | nil => simp [byteLength]
  | cons c x ih => simp [byteLength, ih, Nat.add_assoc]

/-- Only the empty text has no bytes. -/
theorem byteLength_eq_zero : byteLength cs = 0 ↔ cs = [] := by
  cases cs with
  | nil => simp [byteLength]
  | cons c cs =>
      have := c.utf8Size_pos
      simp [byteLength]
      omega

/-! ### Cuts -/

/-- A cut at an offset divides the text there, and there is no other such division. -/
theorem cutAt?_eq_some : cutAt? n cs = some (x, y) ↔ cs = x ++ y ∧ byteLength x = n := by
  induction n, cs using cutAt?.induct generalizing x with
  | case1 cs =>
      simp only [cutAt?, Option.some.injEq, Prod.mk.injEq, byteLength_eq_zero]
      constructor
      · rintro ⟨rfl, rfl⟩
        exact ⟨rfl, rfl⟩
      · rintro ⟨rfl, rfl⟩
        exact ⟨rfl, rfl⟩
  | case2 n =>
      simp only [cutAt?, reduceCtorEq, false_iff, not_and]
      intro divided
      obtain ⟨rfl, -⟩ := List.append_eq_nil_iff.mp divided.symm
      simp [byteLength]
  | case3 n c cs fits ih =>
      simp only [cutAt?, fits, if_true, Option.map_eq_some_iff, Prod.exists, Prod.mk.injEq]
      constructor
      · rintro ⟨before, after, cut, rfl, rfl⟩
        obtain ⟨rfl, size⟩ := ih.mp cut
        refine ⟨rfl, ?_⟩
        simp only [byteLength, size]
        omega
      · rintro ⟨divided, size⟩
        cases x with
        | nil => simp [byteLength] at size
        | cons d x =>
            obtain ⟨rfl, rest⟩ := List.cons_eq_cons.mp divided
            simp only [byteLength] at size
            exact ⟨x, y, ih.mpr ⟨rest, by omega⟩, rfl, rfl⟩
  | case4 n c cs wide =>
      simp only [cutAt?, wide, if_false, reduceCtorEq, false_iff, not_and]
      intro divided
      cases x with
      | nil => simp [byteLength]
      | cons d x =>
          obtain ⟨rfl, -⟩ := List.cons_eq_cons.mp divided
          simp only [byteLength]
          omega

/-- An offset at which a text can be cut. -/
def IsBoundary (cs : List Char) (n : Nat) : Prop :=
  (cutAt? n cs).isSome

instance (cs : List Char) (n : Nat) : Decidable (IsBoundary cs n) :=
  inferInstanceAs (Decidable (_ = true))

/-- A place is between characters exactly if the text can be cut there. -/
theorem isBoundary_iff : IsBoundary cs n ↔ ∃ x y, cs = x ++ y ∧ byteLength x = n := by
  rw [IsBoundary, Option.isSome_iff_exists]
  constructor
  · rintro ⟨⟨x, y⟩, cut⟩
    exact ⟨x, y, cutAt?_eq_some.mp cut⟩
  · rintro ⟨x, y, divided⟩
    exact ⟨(x, y), cutAt?_eq_some.mpr divided⟩

/-- The front of a text is between characters. -/
theorem isBoundary_zero (cs : List Char) : IsBoundary cs 0 :=
  isBoundary_iff.mpr ⟨[], cs, rfl, rfl⟩

/-- The end of a text is between characters. -/
theorem isBoundary_byteLength (cs : List Char) : IsBoundary cs (byteLength cs) :=
  isBoundary_iff.mpr ⟨cs, [], by simp, rfl⟩

/-- No place between characters is behind the end. -/
theorem IsBoundary.le_byteLength (boundary : IsBoundary cs n) : n ≤ byteLength cs := by
  obtain ⟨x, y, rfl, rfl⟩ := isBoundary_iff.mp boundary
  simp

/-- The later of two boundaries is one. -/
theorem IsBoundary.max (first : IsBoundary cs a) (second : IsBoundary cs b) :
    IsBoundary cs (max a b) := by
  rcases Nat.le_total a b with h | h
  · rwa [Nat.max_eq_right h]
  · rwa [Nat.max_eq_left h]

/-! ### Slices -/

/-- The middle of a division into three is the slice from its first to its last byte. -/
theorem slice_of_eq {part : List Char} (divided : cs = x ++ (part ++ y))
    (start : byteLength x = a) (stop : byteLength (x ++ part) = b) : slice cs ⟨a, b⟩ = part := by
  have size : byteLength part = b - a := by
    rw [byteLength_append] at stop
    omega
  have first : cutAt? a cs = some (x, part ++ y) := cutAt?_eq_some.mpr ⟨divided, start⟩
  have second : cutAt? (b - a) (part ++ y) = some (part, y) := cutAt?_eq_some.mpr ⟨rfl, size⟩
  have order : a ≤ b := by
    rw [byteLength_append] at stop
    omega
  simp [slice, order, first, second]

/-- A slice between two boundaries is the middle of a division into three. -/
theorem exists_slice (order : a ≤ b) (start : IsBoundary cs a) (stop : IsBoundary cs b) :
    ∃ x y, cs = x ++ (slice cs ⟨a, b⟩ ++ y) ∧ byteLength x = a ∧
      byteLength (x ++ slice cs ⟨a, b⟩) = b := by
  obtain ⟨x, rest, divided, size⟩ := isBoundary_iff.mp start
  obtain ⟨whole, y, divided', size'⟩ := isBoundary_iff.mp stop
  obtain ⟨part, rfl⟩ : x <+: whole := by
    rcases List.append_eq_append_iff.mp (divided.symm.trans divided') with
      ⟨part, rfl, -⟩ | ⟨part, rfl, -⟩
    · exact List.prefix_append x part
    · have : byteLength part = 0 := by
        rw [byteLength_append] at size
        omega
      simp [byteLength_eq_zero.mp this]
  rw [List.append_assoc] at divided'
  have middle := slice_of_eq divided' size size'
  exact ⟨x, y, by rw [middle]; exact divided', size, by rw [middle]; exact size'⟩

/-- Nothing lies between an offset and itself. -/
@[simp] theorem slice_self (cs : List Char) (n : Nat) : slice cs ⟨n, n⟩ = [] := by
  cases h : cutAt? n cs with
  | none => simp [slice, h]
  | some cut => simp [slice, h, cutAt?]

/-- The whole text is a slice of it. -/
theorem slice_full (cs : List Char) : slice cs ⟨0, byteLength cs⟩ = cs :=
  slice_of_eq (x := []) (y := []) (by simp) rfl (by simp)

/-- Slices that meet make up one slice. -/
theorem slice_append (first : a ≤ b) (second : b ≤ c) (start : IsBoundary cs a)
    (middle : IsBoundary cs b) (stop : IsBoundary cs c) :
    slice cs ⟨a, b⟩ ++ slice cs ⟨b, c⟩ = slice cs ⟨a, c⟩ := by
  obtain ⟨x, y, divided, size, size'⟩ := exists_slice first start middle
  obtain ⟨x', y', divided', size₁, size₁'⟩ := exists_slice second middle stop
  have same : x' = x ++ slice cs ⟨a, b⟩ ∧ slice cs ⟨b, c⟩ ++ y' = y := by
    have cut := cutAt?_eq_some.mpr ⟨divided', size₁⟩
    rw [cutAt?_eq_some.mpr ⟨(List.append_assoc ..).symm ▸ divided, size'⟩] at cut
    simpa [Prod.mk.injEq, eq_comm] using cut
  obtain ⟨rfl, rfl⟩ := same
  rw [List.append_assoc] at size₁'
  refine (slice_of_eq (x := x) (y := y') ?_ size size₁').symm
  rw [List.append_assoc]
  exact divided

/-- Something lies between two different boundaries. -/
theorem slice_ne_nil (order : a < b) (start : IsBoundary cs a) (stop : IsBoundary cs b) :
    slice cs ⟨a, b⟩ ≠ [] := by
  intro empty
  obtain ⟨x, y, -, size, size'⟩ := exists_slice (Nat.le_of_lt order) start stop
  rw [empty, List.append_nil] at size'
  omega

end TaggedMemos.Text
