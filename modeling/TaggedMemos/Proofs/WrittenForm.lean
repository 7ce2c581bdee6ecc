import TaggedMemos.Memo.Id
import TaggedMemos.Proofs.Numeral
import TaggedMemos.Time.Reading

/-!
# Identifiers and Timestamps Are Read Back

The readers of identifiers and of timestamps take many spellings, the writers use one. Of each
reader only the way it goes through the written spelling matters here.

An identifier has four spellings that are told apart by their length and by how they begin. The
written one has 36 characters and begins with a hexadecimal digit, so it is neither 32 digits nor
in braces nor after `urn:uuid:`.

The written form of a timestamp has fields of fixed width as long as its year has four digits, and
a leap second is read back in the last second of a minute only, so other years and leap seconds are
left out (`Timestamp.IsPlain`). Its fraction has as few groups of three digits as will do. The
reader fills the digits up to nine, which multiplies by the power of ten that the writer divided by.

## Main results

* `MemoId.ofText?_toText`: every identifier is read back.
* `Timestamp.ofText?_toText`: every plain timestamp is read back.
-/

namespace TaggedMemos

open Text

/-! ### Identifiers -/

namespace MemoId

/-- A group is followed by a hyphen, if there is another one. -/
theorem grouped_cons_cons {n m : Nat} {lengths : List Nat} {digits : List Char} :
    grouped (n :: m :: lengths) digits =
      digits.take n ++ '-' :: grouped (m :: lengths) (digits.drop n) := rfl

/-- Taking the hyphens out undoes putting them in, where the groups account for every digit. -/
theorem ungrouped?_grouped {n : Nat} {lengths : List Nat} {digits : List Char}
    (total : n + lengths.sum = digits.length) :
    ungrouped? (n :: lengths) (grouped (n :: lengths) digits) = some digits := by
  induction lengths generalizing n digits with
  | nil => rw [grouped, ungrouped?, if_pos (by simpa using total.symm)]
  | cons m lengths ih =>
    rw [List.sum_cons] at total
    have front : (digits.take n).length = n := List.length_take_of_le (by omega)
    have rest : m + lengths.sum = (digits.drop n).length := by
      rw [List.length_drop]
      omega
    have dropped : (grouped (n :: m :: lengths) digits).drop n =
        '-' :: grouped (m :: lengths) (digits.drop n) := by
      rw [grouped_cons_cons, List.drop_left' front]
    have taken : (grouped (n :: m :: lengths) digits).take n = digits.take n := by
      rw [grouped_cons_cons, List.take_left' front]
    simp only [ungrouped?, dropped, ih rest, taken, Option.map_some, List.take_append_drop]

/-- Grouping adds a hyphen for every further group. -/
theorem length_grouped {n : Nat} {lengths : List Nat} {digits : List Char} :
    (grouped (n :: lengths) digits).length = digits.length + lengths.length := by
  induction lengths generalizing n digits with
  | nil => rfl
  | cons m lengths ih =>
    rw [grouped_cons_cons, List.length_append, List.length_cons, ih, List.length_take,
      List.length_drop, List.length_cons]
    omega

/-- A hexadecimal digit opens neither braces nor the prefix of a URN. -/
theorem hexDigit_opens_nothing : ∀ d < 16, hexDigit d ≠ '{' ∧ (hexDigit d).toLower ≠ 'u' := by
  decide

/-- An identifier begins with a hexadecimal digit. -/
theorem toChars_eq_cons (id : MemoId) : ∃ d < 16, ∃ rest, id.toChars = hexDigit d :: rest := by
  obtain ⟨d, small, ds, values⟩ : ∃ d < 16, ∃ ds, digitValues 16 32 id.bits.toNat = d :: ds :=
    digitValues_eq_cons (by decide) (by decide)
  exact ⟨d, small, _, by
    rw [toChars, hexDigits_eq_map, values, List.map_cons, groups, grouped_cons_cons,
      List.take_succ_cons, List.cons_append]⟩

/-- The digits of an identifier are read back. -/
theorem ofDigits?_hexDigits (id : MemoId) : ofDigits? (hexDigits 32 id.bits.toNat) = some id := by
  have kept : id.bits.toNat % 16 ^ 32 = id.bits.toNat := Nat.mod_eq_of_lt id.bits.isLt
  rw [ofDigits?, if_pos length_hexDigits, hexadecimal?_hexDigits (by decide), kept,
    Option.map_some, ofNat, BitVec.ofNat_toNat, BitVec.setWidth_eq]

/-- **An identifier is read back**: its written form names it and no other. -/
theorem ofText?_toText (id : MemoId) : ofText? id.toText = some id := by
  obtain ⟨d, small, rest, cs⟩ := id.toChars_eq_cons
  obtain ⟨no_brace, no_urn⟩ := hexDigit_opens_nothing d small
  have not_bare : id.toChars.length ≠ 32 := by
    rw [toChars, groups, length_grouped, length_hexDigits]
    decide
  have unbraced : braced? id.toChars = none := by
    rw [cs, braced?]
    exact fun _ _ same _ => no_brace (List.cons.inj same).1
  have no_prefix : afterUrn? id.toChars = none := by
    rw [cs, afterUrn?, if_neg]
    intro same
    exact no_urn (List.cons.inj same).1
  have ungroups : ungrouped? groups id.toChars = some (hexDigits 32 id.bits.toNat) :=
    ungrouped?_grouped (by rw [length_hexDigits]; rfl)
  rw [ofText?, toText, String.toList_ofList]
  simp only [not_bare, if_false, unbraced, no_prefix, Option.orElse_none, Option.getD_none,
    ungroups, Option.bind_some, ofDigits?_hexDigits]

end MemoId

/-! ### Numbers in a timestamp -/

namespace Timestamp

variable {width n most : Nat} {ds : List Nat} {cs rest : List Char}

/-- Whether a text does not go on with a decimal digit. -/
def EndsDigits (cs : List Char) : Prop :=
  ∀ c ∈ cs.head?, decimalDigit? c = none

/-- Digits are taken up to the number of digits wanted or to the end of the digits. -/
theorem takeDigits_map (digits : ∀ d ∈ ds, d < 10) (fits : ds.length ≤ most)
    (ends : ds.length = most ∨ EndsDigits rest) :
    takeDigits most (ds.map decimalDigit ++ rest) = (ds, rest) := by
  induction ds generalizing most with
  | nil =>
    cases most with
    | zero => rfl
    | succ most =>
      have ends : EndsDigits rest := ends.resolve_left (Nat.succ_ne_zero most).symm
      cases rest with
      | nil => rfl
      | cons c rest =>
        have no_digit : decimalDigit? c = none := ends c rfl
        simp only [List.map_nil, List.nil_append, takeDigits, no_digit]
  | cons d ds ih =>
    cases most with
    | zero => exact absurd fits (Nat.not_succ_le_zero _)
    | succ most =>
      have taken := ih (fun x mem => digits x (List.mem_cons_of_mem d mem))
        (Nat.le_of_succ_le_succ fits) (ends.imp_left Nat.succ.inj)
      have digit := decimalDigit?_decimalDigit d (digits d List.mem_cons_self)
      simp only [List.map_cons, List.cons_append, takeDigits, digit, taken]

/-- The digits that are taken are those that were written. -/
theorem takeDigits_decimalDigits (fits : width ≤ most) (ends : width = most ∨ EndsDigits rest) :
    takeDigits most (decimalDigits width n ++ rest) = (digitValues 10 width n, rest) := by
  rw [decimalDigits_eq_map]
  refine takeDigits_map (fun d mem => lt_of_mem_digitValues (by decide) mem) ?_ ?_
  · rwa [length_digitValues]
  · rwa [length_digitValues]

/-- A number written with a fixed width is read as what the width keeps of it. -/
theorem number?_decimalDigits (filled : 0 < width) :
    number? width (decimalDigits width n ++ rest) = some (n % 10 ^ width, rest) := by
  obtain ⟨d, -, ds, values⟩ : ∃ d < 10, ∃ ds, digitValues 10 width n = d :: ds :=
    digitValues_eq_cons (by decide) filled
  rw [number?, takeDigits_decimalDigits le_rfl (.inl rfl), ← ofDigits_digitValues, values]

/-- A decimal digit is neither blank nor a sign. -/
theorem decimalDigit_plain : ∀ d < 10,
    isBlank (decimalDigit d) = false ∧ decimalDigit d ≠ '-' ∧ decimalDigit d ≠ '+' := by
  decide

/-- A number with some width begins with a decimal digit. -/
theorem decimalDigits_eq_cons (filled : 0 < width) :
    ∃ d < 10, ∃ tail, decimalDigits width n = decimalDigit d :: tail := by
  obtain ⟨d, small, ds, values⟩ : ∃ d < 10, ∃ ds, digitValues 10 width n = d :: ds :=
    digitValues_eq_cons (by decide) filled
  exact ⟨d, small, ds.map decimalDigit, by rw [decimalDigits_eq_map, values, List.map_cons]⟩

/-- A number has no blanks in front. -/
theorem trimStart_decimalDigits (filled : 0 < width) :
    trimStart (decimalDigits width n ++ rest) = decimalDigits width n ++ rest := by
  obtain ⟨d, small, tail, digits⟩ := decimalDigits_eq_cons (n := n) filled
  rw [digits, List.cons_append, trimStart,
    List.dropWhile_cons_of_neg (by simp [(decimalDigit_plain d small).1])]

/-- Two digits are read back. -/
theorem smallNumber?_decimalDigits (two_digits : n < 10 ^ 2) :
    smallNumber? (decimalDigits 2 n ++ rest) = some (n, rest) := by
  rw [smallNumber?, trimStart_decimalDigits (by decide), number?_decimalDigits (by decide),
    Nat.mod_eq_of_lt two_digits]

/-- A year of four digits is read back. -/
theorem year?_decimalDigits (four_digits : n < 10 ^ 4) :
    year? (decimalDigits 4 n ++ rest) = some ((n : Int), rest) := by
  obtain ⟨d, small, tail, digits⟩ := decimalDigits_eq_cons (n := n) (show 0 < 4 by decide)
  obtain ⟨-, no_minus, no_plus⟩ := decimalDigit_plain d small
  have read : number? 4 (decimalDigits 4 n ++ rest) = some (n, rest) := by
    rw [number?_decimalDigits (by decide), Nat.mod_eq_of_lt four_digits]
  rw [digits] at read
  rw [year?, trimStart_decimalDigits (by decide), digits, List.cons_append]
  split
  · next same => exact absurd (List.cons.inj same).1 no_minus
  · next same => exact absurd (List.cons.inj same).1 no_plus
  · rw [← List.cons_append, read, Option.map_some]

/-- A mark is found in front. -/
theorem afterMark?_cons {mark : Char} (visible : isBlank mark = false) :
    afterMark? mark (mark :: rest) = some rest := by
  rw [afterMark?, trimStart, List.dropWhile_cons_of_neg (by simp [visible])]
  simp [stripPrefix?]

/-! ### Parts of a timestamp -/

/-- Whether an instant has a written form of fixed width: it is no leap second, and its year has
four digits. -/
def IsPlain (t : Timestamp) : Prop :=
  t.Valid ∧ 0 ≤ t.date.year ∧ t.date.year ≤ 9999

instance (t : Timestamp) : Decidable t.IsPlain := by
  unfold IsPlain
  infer_instance

/-- No month has more than 31 days. -/
theorem daysInMonth_le {year : Int} {month : Nat} : daysInMonth year month ≤ 31 := by
  fun_cases daysInMonth year month <;> decide

/-- A day with a year of four digits is read back. -/
theorem date?_dateText {d : Day} (valid : d.Valid) (first : 0 ≤ d.year) (last : d.year ≤ 9999) :
    date? (dateText d ++ rest) = some (d, rest) := by
  obtain ⟨-, -, -, month, -, day⟩ := valid
  have short := day.trans daysInMonth_le
  have year : yearText d.year = decimalDigits 4 d.year.natAbs := by
    rw [yearText, if_neg (by omega), if_neg (by omega), fourDigits, if_pos (by omega)]
  have positive : (d.year.natAbs : Int) = d.year := by omega
  simp only [date?, dateText, year, List.append_assoc, List.cons_append,
    year?_decimalDigits (show d.year.natAbs < 10 ^ 4 by omega), positive,
    smallNumber?_decimalDigits (show d.month < 10 ^ 2 by omega),
    smallNumber?_decimalDigits (show d.day < 10 ^ 2 by omega),
    afterMark?_cons (show isBlank '-' = false by decide), Option.bind_eq_bind,
    Option.bind_some, Option.pure_def]

/-- The reader of a fraction fills the digits up to nine. -/
theorem fraction?_decimalDigits {k : Nat} (filled : 0 < k) (most : k ≤ 9) :
    fraction? ('.' :: decimalDigits k n ++ ['Z']) = some (n % 10 ^ k * 10 ^ (9 - k), ['Z']) := by
  have ends : EndsDigits ['Z'] := by
    rintro c ⟨⟩
    decide
  have taken : takeDigits 9 (decimalDigits k n ++ ['Z']) = (digitValues 10 k n, ['Z']) :=
    takeDigits_decimalDigits most (.inr ends)
  have value : ofDigits 10 (digitValues 10 k n ++ List.replicate (9 - k) 0) =
      n % 10 ^ k * 10 ^ (9 - k) := by
    rw [ofDigits_append_zeros, ofDigits_digitValues]
  obtain ⟨d, -, ds, values⟩ : ∃ d < 10, ∃ ds, digitValues 10 k n = d :: ds :=
    digitValues_eq_cons (by decide) filled
  have length : (d :: ds).length = k := by rw [← values, length_digitValues]
  have blank : ['Z'].dropWhile (fun c => (decimalDigit? c).isSome) = ['Z'] := by decide
  rw [values] at taken value
  simp only [fraction?, List.cons_append, taken, length, blank]
  rw [← List.cons_append, value]

/-- However many digits a fraction is written with, it is read back. -/
theorem fraction?_fractionText {nano : Nat} (part : nano < nanosPerSecond) :
    fraction? (fractionText nano ++ ['Z']) = some (nano, ['Z']) := by
  rw [nanosPerSecond] at part
  unfold fractionText
  split_ifs with none millis micros
  · rw [none]
    rfl
  all_goals
    rw [fraction?_decimalDigits (by decide) (by decide)]
    exact congrArg (fun k => some (k, ['Z'])) (by omega)

/-- The time of a day is read back, up to the time zone behind it. -/
theorem timeOfDay?_toChars {second nano : Nat} (day : second < secondsPerDay)
    (part : nano < nanosPerSecond) :
    timeOfDay? (minuteText second ++ ':' :: decimalDigits 2 (second % 60) ++
      fractionText nano ++ ['Z']) = some ((second, nano), ['Z']) := by
  rw [secondsPerDay] at day
  have hour : second / 3600 ≤ 23 := by omega
  have minute : second / 60 % 60 ≤ 59 := by omega
  have in_minute : second % 60 ≤ 60 := by omega
  have no_leap : second % 60 ≠ 60 := by omega
  have total : second / 3600 * 3600 + second / 60 % 60 * 60 + second % 60 = second := by omega
  simp only [timeOfDay?, minuteText, List.append_assoc, List.cons_append,
    smallNumber?_decimalDigits (show second / 3600 < 10 ^ 2 by omega),
    smallNumber?_decimalDigits (show second / 60 % 60 < 10 ^ 2 by omega),
    smallNumber?_decimalDigits (show second % 60 < 10 ^ 2 by omega),
    afterMark?_cons (show isBlank ':' = false by decide), fraction?_fractionText part,
    Option.bind_eq_bind, Option.bind_some, Option.pure_def, hour, minute, in_minute, and_self,
    guard, if_true, no_leap, if_false, total]

/-- **A plain timestamp is read back**, to the nanosecond. -/
theorem ofText?_toText {t : Timestamp} (plain : t.IsPlain) : ofText? t.toText = some t := by
  obtain ⟨⟨valid, day, part⟩, first, last⟩ := plain
  have whole : t.second % 60 + t.nano / nanosPerSecond = t.second % 60 := by
    rw [Nat.div_eq_of_lt part, Nat.add_zero]
  have fraction : t.nano % nanosPerSecond = t.nano := Nat.mod_eq_of_lt part
  have zone : offset? (trimStart ['Z']) = some (0, []) := by decide
  have same : ofLocal ⟨t.date, t.second, t.nano⟩ 0 = t := by
    rw [ofLocal]
    simp only [Int.sub_zero, Int.toNat_natCast]
    rw [if_neg (by omega), if_neg (by omega)]
  rw [ofText?, toText, String.toList_ofList, ofChars?, toChars, whole, fraction]
  simp only [List.append_assoc, date?_dateText valid first last, Option.bind_eq_bind,
    Option.bind_some, List.cons_append]
  simp only [← List.append_assoc, ← List.cons_append, timeOfDay?_toChars day part, zone, same,
    Option.bind_some, isBlankText, List.all_nil, valid, and_self, guard, if_true,
    Option.pure_def]

-- A leap second that is kept in the middle of a minute is read as the second after.
example : ofText? (toText ⟨⟨2016, 12, 31⟩, 30, 1500000000⟩) =
    some ⟨⟨2016, 12, 31⟩, 31, 500000000⟩ := by
  decide +kernel

end Timestamp

end TaggedMemos
