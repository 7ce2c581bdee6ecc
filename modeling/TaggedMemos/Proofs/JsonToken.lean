import Mathlib.Data.List.Basic
import TaggedMemos.Json.Token
import TaggedMemos.Json.Writer
import TaggedMemos.Proofs.Numeral

/-!
# Written Texts and Numbers Are Tokens

The two tokens of JSON that carry data, read back from the way they are written.

A text is written character by character, and every character is read back as one piece: most as
themselves, control characters without a short escape as a code unit. Such a unit is below the
surrogates, so it stands for its character whatever comes next.

A number says nothing about where it ends. It is read back in front of a text that does not go on
with a digit, a point or an exponent (`EndsNumber`), which nothing that follows a value in a
written text does.

## Main results

* `token?_quoted`: a written text is one token, which has the text as its value.
* `token?_toString`: a written integer is one token, which has the integer as its value.
-/

namespace TaggedMemos.Json

open Text

variable {cs rest : List Char}

/-! ### Texts -/

/-- The piece that a character is read back as. -/
def pieceOf (c : Char) : Piece :=
  if c ∈ ['\x08', '\x0c', '\n', '\r', '\t'] then .char c
  else if c < ' ' then .unit c.toNat
  else .char c

/-- Four hexadecimal digits make a code unit. -/
theorem pieces?_unit {n : Nat} (small : n < 16 ^ 4) :
    pieces? ('\\' :: 'u' :: hexDigits 4 n ++ cs) =
      (pieces? cs).map fun (pieces, rest) => (.unit n :: pieces, rest) := by
  have value : hexadecimal? (hexDigits 4 n) = some n := by
    rw [hexadecimal?_hexDigits (by decide), Nat.mod_eq_of_lt small]
  simp only [hexDigits, List.nil_append, List.cons_append] at value ⊢
  rw [pieces?, value]
  cases pieces? cs <;> rfl

/-- A letter after a backslash makes the character it stands for. -/
theorem pieces?_short {e c : Char} (means : unescape? e = some c) :
    pieces? ('\\' :: e :: cs) =
      (pieces? cs).map fun (pieces, rest) => (.char c :: pieces, rest) := by
  rw [pieces?, means]
  · cases pieces? cs <;> rfl
  · rintro _ _ _ _ _ rfl -
    cases means

/-- Every other character makes itself. -/
theorem pieces?_plain {c : Char} (no_quote : c ≠ '"') (no_backslash : c ≠ '\\')
    (visible : ' ' ≤ c) :
    pieces? (c :: cs) = (pieces? cs).map fun (pieces, rest) => (.char c :: pieces, rest) := by
  rw [pieces?]
  · simp only [visible, guard, if_true]
    cases pieces? cs <;> rfl
  · exact no_quote
  · exact fun _ _ _ _ _ same _ => no_backslash same
  · exact fun _ _ same _ => no_backslash same

/-- An escaped character is read back as one piece. -/
theorem pieces?_escaped (c : Char) :
    pieces? (escaped c ++ cs) =
      (pieces? cs).map fun (pieces, rest) => (pieceOf c :: pieces, rest) := by
  have short {e c : Char} (means : unescape? e = some c) (piece : pieceOf c = .char c) :
      pieces? (['\\', e] ++ cs) =
        (pieces? cs).map fun (pieces, rest) => (pieceOf c :: pieces, rest) := by
    rw [piece]
    exact pieces?_short means
  unfold escaped
  split_ifs with quote backslash b f n r t control
  · subst quote; exact short rfl (by decide)
  · subst backslash; exact short rfl (by decide)
  · subst b; exact short rfl (by decide)
  · subst f; exact short rfl (by decide)
  · subst n; exact short rfl (by decide)
  · subst r; exact short rfl (by decide)
  · subst t; exact short rfl (by decide)
  · have piece : pieceOf c = .unit c.toNat := by simp [pieceOf, b, f, n, r, t, control]
    rw [piece]
    exact pieces?_unit (Nat.lt_trans (Char.lt_def.mp control) (by decide))
  · have piece : pieceOf c = .char c := by simp [pieceOf, control]
    rw [piece]
    exact pieces?_plain quote backslash (Char.not_lt.mp control)

/-- A code unit below the surrogates stands for its character, whatever comes next. -/
theorem joined?_unit {n : Nat} {pieces : List Piece} (below : n < 0xD800) :
    joined? (.unit n :: pieces) = (joined? pieces).map (Char.ofNat n :: ·) := by
  have no_high : isHighSurrogate n = false := by
    simp only [isHighSurrogate, Bool.and_eq_false_imp, decide_eq_true_eq]
    omega
  have no_low : isLowSurrogate n = false := by
    simp only [isLowSurrogate, Bool.and_eq_false_imp, decide_eq_true_eq]
    omega
  rcases pieces with - | ⟨c | m, pieces⟩
  · simp [joined?, no_high, no_low]
  · simp [joined?, no_high, no_low, Function.comp_def]
  · simp [joined?, no_high, no_low]

/-- A character that stands for itself is joined in front. -/
theorem joined?_pieceOf (c : Char) {pieces : List Piece} :
    joined? (pieceOf c :: pieces) = (joined? pieces).map (c :: ·) := by
  unfold pieceOf
  split_ifs with short control
  · rw [joined?]
  · have below : c.toNat < 0xD800 := Nat.lt_trans (Char.lt_def.mp control) (by decide)
    rw [joined?_unit below, Char.ofNat_toNat]
  · rw [joined?]

/-- Characters that stand for themselves make up the text. -/
theorem joined?_map_pieceOf (cs : List Char) : joined? (cs.map pieceOf) = some cs := by
  induction cs with
  | nil => rfl
  | cons c cs ih => rw [List.map_cons, joined?_pieceOf, ih, Option.map_some]

/-- What is written between the quotes of a text is read up to the closing quote. -/
theorem pieces?_flatMap_escaped (cs : List Char) :
    pieces? (cs.flatMap escaped ++ '"' :: rest) = some (cs.map pieceOf, rest) := by
  induction cs with
  | nil => rw [List.flatMap_nil, List.nil_append, pieces?, List.map_nil]
  | cons c cs ih =>
    rw [List.flatMap_cons, List.append_assoc, pieces?_escaped, ih, List.map_cons, Option.map_some]

/-- **A written text is one token**, which has the text as its value. -/
theorem token?_quoted (s : String) :
    token? (quoted s ++ rest) = some (.text (some s), rest) := by
  rw [quoted, List.cons_append, List.cons_append, List.append_assoc, List.singleton_append, token?,
    pieces?_flatMap_escaped, Option.map_some]
  simp only [joined?_map_pieceOf, Option.map_some, String.ofList_toList]

example : String.ofList (quoted "\t\x1f\"é\u2028") = "\"\\t\\u001f\\\"é\u2028\"" := by
  decide +kernel

/-! ### Numbers -/

/-- Whether a text does not go on with a piece of a number. -/
def EndsNumber (cs : List Char) : Prop :=
  ∀ c ∈ cs.head?, c.isDigit = false ∧ c ≠ '.' ∧ c ≠ 'e' ∧ c ≠ 'E'

/-- A number is written with one digit at least. -/
theorem toDigits_eq_cons (n : Nat) :
    ∃ c ds, Nat.toDigits 10 n = c :: ds ∧ c.isDigit := by
  obtain ⟨c, ds, digits⟩ := List.exists_cons_of_ne_nil (Nat.toDigits_ne_nil (n := n) (b := 10))
  exact ⟨c, ds, digits, Nat.isDigit_of_mem_toDigits (b := 10) (n := n) (by decide) (by decide)
    (digits ▸ List.mem_cons_self)⟩

/-- A number ends before a character that continues none. -/
theorem endsNumber_cons {c : Char} (mark : c.isDigit = false ∧ c ≠ '.' ∧ c ≠ 'e' ∧ c ≠ 'E') :
    EndsNumber (c :: cs) := by
  rintro c ⟨⟩
  exact mark

/-- What a number ends before may have more behind it, if the number would end there too. -/
theorem EndsNumber.append (front : EndsNumber cs) (ends : EndsNumber rest) :
    EndsNumber (cs ++ rest) := by
  cases cs with
  | nil => exact ends
  | cons c cs => exact endsNumber_cons (front c rfl)

/-- A number above zero is written without a zero in front. -/
theorem head?_toDigits_ne {n : Nat} (pos : 0 < n) : (Nat.toDigits 10 n).head? ≠ some '0' := by
  induction n using Nat.strongRecOn with
  | ind n ih =>
    rcases Nat.lt_or_ge n 10 with small | large
    · have all : ∀ n < 10, 0 < n → n.digitChar ≠ '0' := by decide
      rw [Nat.toDigits_of_lt_base small]
      exact fun same => all n small pos (Option.some.inj same)
    · have front := ih (n / 10) (by omega) (by omega)
      rw [Nat.toDigits_of_base_le (by decide) large, List.head?_append]
      obtain ⟨c, ds, digits, -⟩ := toDigits_eq_cons (n / 10)
      rw [digits] at front ⊢
      exact front

/-- The digits that are read are those that were written. -/
theorem digits_toDigits {n : Nat} (ends : EndsNumber rest) :
    digits (Nat.toDigits 10 n ++ rest) = (Nat.toDigits 10 n, rest) := by
  have all : ∀ c ∈ Nat.toDigits 10 n, c.isDigit := fun c mem =>
    Nat.isDigit_of_mem_toDigits (by decide) (by decide) mem
  have stop : rest.takeWhile Char.isDigit = [] ∧ rest.dropWhile Char.isDigit = rest := by
    cases rest with
    | nil => exact ⟨rfl, rfl⟩
    | cons c rest =>
      have no_digit := (ends c rfl).1
      exact ⟨List.takeWhile_cons_of_neg (by simp [no_digit]),
        List.dropWhile_cons_of_neg (by simp [no_digit])⟩
  rw [digits, List.takeWhile_append_of_pos all, List.dropWhile_append_of_pos all, stop.1, stop.2,
    List.append_nil]

/-- The digits before the point are read back, as they have no superfluous zero. -/
theorem wholePart?_toDigits {n : Nat} (ends : EndsNumber rest) :
    wholePart? (Nat.toDigits 10 n ++ rest) = some (n, rest) := by
  rw [wholePart?, digits_toDigits ends]
  rcases Nat.eq_zero_or_pos n with rfl | pos
  · rfl
  · split
    · next same =>
      exact absurd (by rw [(Prod.mk.inj same).1]; rfl) (head?_toDigits_ne pos)
    · next same =>
      exact absurd (by rw [(Prod.mk.inj same).1]; rfl) (head?_toDigits_ne pos)
    · next same =>
      obtain ⟨rfl, rfl⟩ := Prod.mk.inj same
      rw [decimal?_toDigits, Option.map_some]

/-- Where a number ends, it has no fraction. -/
theorem fraction?_of_endsNumber (ends : EndsNumber rest) : fraction? rest = some (false, rest) := by
  unfold fraction?
  split
  · exact absurd rfl (ends _ rfl).2.1
  · rfl

/-- Where a number ends, it has no exponent. -/
theorem exponent?_of_endsNumber (ends : EndsNumber rest) : exponent? rest = some (false, rest) := by
  unfold exponent?
  split
  · exact absurd rfl (ends _ rfl).2.2.1
  · exact absurd rfl (ends _ rfl).2.2.2
  · rfl

/-- The characters of an integer are decimal digits, after a sign if it is negative. -/
theorem toList_toString (n : Int) :
    (toString n).toList =
      if 0 ≤ n then Nat.toDigits 10 n.toNat else '-' :: Nat.toDigits 10 (-n).toNat := by
  rw [Int.toString_eq_repr, Int.repr_eq_if]
  split
  · exact Nat.toList_repr
  · rw [String.toList_append, Nat.toList_repr]
    rfl

/-- An integer begins with a minus sign or a digit. -/
theorem toList_toString_eq_cons (n : Int) :
    ∃ c cs, (toString n).toList = c :: cs ∧ (c = '-' ∨ c.isDigit) := by
  rw [toList_toString]
  split
  · obtain ⟨c, ds, digits, digit⟩ := toDigits_eq_cons n.toNat
    exact ⟨c, ds, digits, .inr digit⟩
  · exact ⟨_, _, rfl, .inl rfl⟩

/-- What an integer begins with is not blank. -/
theorem isBlank_eq_false {c : Char} (starts : c = '-' ∨ c.isDigit) : isBlank c = false := by
  simp only [isBlank, Bool.or_eq_false_iff, beq_eq_false_iff_ne]
  refine ⟨⟨⟨?_, ?_⟩, ?_⟩, ?_⟩ <;>
    · rintro rfl
      simp at starts

/-- What begins with a digit or a sign is a number. -/
theorem token?_eq_number? {c : Char} (starts : c = '-' ∨ c.isDigit) :
    token? (c :: cs) = number? (c :: cs) := by
  unfold token?
  split <;> simp_all

/-- A written number is read with its value. -/
theorem number?_toDigits (n : Nat) (ends : EndsNumber rest) :
    number? (Nat.toDigits 10 n ++ rest) = some (.number (some n), rest) := by
  have unsigned : ((Nat.toDigits 10 n ++ rest).head? == some '-') = false := by
    obtain ⟨c, ds, digits, digit⟩ := toDigits_eq_cons n
    rw [digits, List.cons_append, List.head?_cons, beq_eq_false_iff_ne]
    rintro ⟨⟩
    cases digit
  simp only [number?, unsigned, Bool.false_eq_true, if_false, wholePart?_toDigits ends,
    fraction?_of_endsNumber ends, exponent?_of_endsNumber ends, Option.bind_eq_bind,
    Option.bind_some, Option.pure_def, Bool.false_and, Bool.not_false, Bool.and_self, if_true]

/-- Minus zero is no integer, but no integer is written so. -/
theorem number?_minus_toDigits {n : Nat} (pos : 0 < n) (ends : EndsNumber rest) :
    number? ('-' :: (Nat.toDigits 10 n ++ rest)) = some (.number (some (-n)), rest) := by
  have signed : (some '-' == some '-') = true := rfl
  have nonzero : (n == 0) = false := beq_eq_false_iff_ne.mpr pos.ne'
  simp only [number?, List.head?_cons, signed, if_true, List.tail_cons, wholePart?_toDigits ends,
    fraction?_of_endsNumber ends, exponent?_of_endsNumber ends, Option.bind_eq_bind,
    Option.bind_some, Option.pure_def, nonzero, Bool.and_false, Bool.not_false, Bool.and_self]

/-- **A written integer is one token**, which has the integer as its value. -/
theorem token?_toString (n : Int) (ends : EndsNumber rest) :
    token? ((toString n).toList ++ rest) = some (.number (some n), rest) := by
  rw [toList_toString]
  split
  · next nonneg =>
    obtain ⟨c, ds, digits, digit⟩ := toDigits_eq_cons n.toNat
    have read := number?_toDigits n.toNat ends
    rw [digits, List.cons_append] at read ⊢
    rw [token?_eq_number? (.inr digit), read, Int.toNat_of_nonneg nonneg]
  · next negative =>
    have same : -((-n).toNat : Int) = n := by omega
    rw [List.cons_append, token?_eq_number? (.inl rfl), number?_minus_toDigits (by omega) ends,
      same]

end TaggedMemos.Json
