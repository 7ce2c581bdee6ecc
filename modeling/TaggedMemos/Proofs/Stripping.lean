import Mathlib.Data.List.DropRight
import Mathlib.Order.Basic
import TaggedMemos.Proofs.Replacement

/-!
# Stripping Markers

A marker is stripped in two passes. The first takes out the markers with a space behind, the second
all markers left, and then the ends of the text are trimmed. Each pass goes through the text once,
so what it leaves on both sides of a marker is not looked at again. A marker in that place had its
beginning in front of another marker, and its end behind. When the first pass has joined one, the
second takes it out with the others; when the second has, it stays: `##aa` is stripped of `#a`, and
is `#a` (`stripping_joins_marker`).

This is the only way for a marker to be left, because a marker has one number sign: where nothing
was taken out, all markers of a text begin at its own number signs and would have been found.

## Main results

* `infix_replaceAll`: what occurs in a text after removals.
* `marker_infix_replaceAll_iff`: when removing all markers leaves one.
* `marker_left_iff`: when stripping leaves a marker, and when it does so again.
-/

namespace TaggedMemos.Text

variable {old part name text rest cs : List Char} {sign c : Char} {p : Char → Bool}

/-! ### What removals join -/

/-- A part of a text that removals join: it is cut in two, with the beginning in front of an
occurrence of `old`, and the end behind it, once the occurrences there are removed as well. -/
def IsJoined (old part text : List Char) : Prop :=
  ∃ before start finish after, part = start ++ finish ∧ start ≠ [] ∧ finish ≠ [] ∧
    text = before ++ start ++ old ++ after ∧ finish <+: replaceAll old [] after

/-- A marker stands directly behind the beginning of one. -/
def IsNested (marker text : List Char) : Prop :=
  ∃ start finish, marker = start ++ finish ∧ start ≠ [] ∧ finish ≠ [] ∧ start ++ marker <:+: text

/-- A part that is joined is joined behind another text as well. -/
theorem IsJoined.prepend (joined : IsJoined old part text) (front : List Char) :
    IsJoined old part (front ++ text) := by
  obtain ⟨before, start, finish, after, cut, filled, filled', rfl, onward⟩ := joined
  exact ⟨front ++ before, start, finish, after, cut, filled, filled', by simp, onward⟩

/-- Where a marker is joined, one stands behind its beginning. -/
theorem IsJoined.isNested {marker : List Char} (joined : IsJoined marker marker text) :
    IsNested marker text := by
  obtain ⟨before, start, finish, after, cut, filled, filled', rfl, -⟩ := joined
  exact ⟨start, finish, cut, filled, filled', before, after, by simp⟩

/-- A text after removals begins as it did before, up to the first removal. -/
theorem prefix_replaceAll (filled : old ≠ []) (begins : part <+: replaceAll old [] text) :
    part <+: text ∨ ∃ start finish after, part = start ++ finish ∧ finish ≠ [] ∧
      text = start ++ old ++ after ∧ finish <+: replaceAll old [] after := by
  induction text using replaced_induction old filled generalizing part with
  | nil => exact .inl begins
  | found rest =>
      rw [replaceAll_append_self filled, List.nil_append] at begins
      cases part with
      | nil => exact .inl List.nil_prefix
      | cons d part => exact .inr ⟨[], d :: part, rest, rfl, List.cons_ne_nil _ _, rfl, begins⟩
  | other c rest absent ih =>
      rw [replaceAll_cons absent] at begins
      cases part with
      | nil => exact .inl List.nil_prefix
      | cons d part =>
          obtain ⟨rfl, tail_begins⟩ := List.cons_prefix_cons.mp begins
          rcases ih tail_begins with kept | ⟨start, finish, after, rfl, filled', rfl, onward⟩
          · exact .inl (List.cons_prefix_cons.mpr ⟨rfl, kept⟩)
          · exact .inr ⟨d :: start, finish, after, rfl, filled', rfl, onward⟩

/-- **What occurs in a text after removals** occurred in it before, where nothing to be removed
begins, or was joined. -/
theorem infix_replaceAll (filled : old ≠ []) (filled' : part ≠ [])
    (inside : part <:+: replaceAll old [] text) :
    (∃ before after, text = before ++ part ++ after ∧ ¬ old <+: part ++ after) ∨
      IsJoined old part text := by
  induction text using replaced_induction old filled with
  | nil => exact absurd (List.infix_nil.mp inside) filled'
  | found rest ih =>
      rw [replaceAll_append_self filled, List.nil_append] at inside
      rcases ih inside with ⟨before, after, rfl, apart⟩ | joined
      · exact .inl ⟨old ++ before, after, by simp, apart⟩
      · exact .inr (joined.prepend old)
  | other c rest absent ih =>
      rw [replaceAll_cons absent] at inside
      rcases List.infix_cons_iff.mp inside with begins | later
      · -- It begins with the character kept, so only what comes after can have been joined to it.
        obtain ⟨d, part, rfl⟩ := List.exists_cons_of_ne_nil filled'
        obtain ⟨rfl, tail_begins⟩ := List.cons_prefix_cons.mp begins
        rcases prefix_replaceAll filled tail_begins with ⟨after, rfl⟩ | cut
        · exact .inl ⟨[], after, rfl, absent⟩
        · obtain ⟨start, finish, after, rfl, filled'', rfl, onward⟩ := cut
          exact .inr ⟨[], d :: start, finish, after, rfl, List.cons_ne_nil _ _, filled'', rfl,
            onward⟩
      · rcases ih later with ⟨before, after, rfl, apart⟩ | joined
        · exact .inl ⟨c :: before, after, rfl, apart⟩
        · exact .inr (joined.prepend [c])

/-- **Removing all markers leaves one** exactly where one is joined. -/
theorem marker_infix_replaceAll_iff (free : sign ∉ name) :
    sign :: name <:+: replaceAll (sign :: name) [] text ↔
      IsJoined (sign :: name) (sign :: name) text := by
  have filled : sign :: name ≠ [] := List.cons_ne_nil _ _
  refine ⟨fun inside => ?_, ?_⟩
  · rcases infix_replaceAll filled filled inside with ⟨_, _, -, apart⟩ | joined
    · exact absurd (List.prefix_append _ _) apart
    · exact joined
  · rintro ⟨before, start, finish, after, cut, filled', filled'', rfl, onward⟩
    obtain ⟨c, start, rfl⟩ := List.exists_cons_of_ne_nil filled'
    rw [List.cons_append, List.cons.injEq] at cut
    obtain ⟨rfl, rfl⟩ := cut
    -- The beginning is too short for a marker, so the removal leaves it alone.
    have short : ¬ sign :: (start ++ finish) <:+: sign :: start := by
      intro inside
      have longer := inside.length_le
      have some_char := List.length_pos_iff.mpr filled''
      simp only [List.length_cons, List.length_append] at longer
      omega
    obtain ⟨rest, onward⟩ := onward
    refine ⟨replaceAll (sign :: (start ++ finish)) [] before, rest, ?_⟩
    rw [List.append_assoc, List.append_assoc, replaceAll_append free (by simp),
      replaceAll_append free (by simp), replaceAll_eq_self short, replaceAll_append_self filled,
      List.nil_append, ← onward]
    simp

/-- What stands directly in front of a marker after removals of markers, with something behind them,
did so before from its beginning on, or a marker was nested in another. -/
theorem front_of_replaceAll {front marker tail : List Char} (filled : front ≠ [])
    (filled' : marker ≠ []) (inside : front ++ marker <:+: replaceAll (marker ++ tail) [] text) :
    (∃ begun, begun <+: front ∧ begun ≠ [] ∧ begun ++ marker <:+: text) ∨ IsNested marker text := by
  rcases infix_replaceAll (List.append_ne_nil_of_left_ne_nil filled' _)
      (List.append_ne_nil_of_left_ne_nil filled _) inside with ⟨before, after, rfl, -⟩ | joined
  · exact .inl ⟨front, List.prefix_refl _, filled, before, after, rfl⟩
  · obtain ⟨before, start, back, after, halves, filled_start, filled_back, rfl, -⟩ := joined
    -- What stood in front of the marker removed ends within the front, or within the marker.
    rcases List.append_eq_append_iff.mp halves with ⟨more, rfl, within⟩ | ⟨more, rfl, -⟩
    · cases more with
      | nil =>
          rw [List.append_nil]
          exact .inl ⟨front, List.prefix_refl _, filled, before, tail ++ after, by simp⟩
      | cons c more =>
          exact .inr ⟨c :: more, back, within, List.cons_ne_nil _ _, filled_back, before ++ front,
            tail ++ after, by simp⟩
    · exact .inl ⟨start, List.prefix_append _ _, filled_start, before, tail ++ after, by simp⟩

/-- Removing markers with something behind them nests none that were not nested before. -/
theorem IsNested.of_replaceAll {marker tail : List Char}
    (nested : IsNested marker (replaceAll (marker ++ tail) [] text)) : IsNested marker text := by
  obtain ⟨start, finish, cut, filled, filled', inside⟩ := nested
  have filled_marker : marker ≠ [] := cut ▸ List.append_ne_nil_of_left_ne_nil filled _
  rcases front_of_replaceAll filled filled_marker inside with
    ⟨begun, ⟨more, rfl⟩, some_char, inside⟩ | nested
  · exact ⟨begun, more ++ finish, by rw [cut, List.append_assoc], some_char,
      List.append_ne_nil_of_right_ne_nil _ filled', inside⟩
  · exact nested

/-- Removing what occurs makes a text shorter. -/
theorem length_replaceAll_lt (filled : old ≠ []) (inside : old <:+: text) :
    (replaceAll old [] text).length < text.length := by
  induction text using replaced_induction old filled with
  | nil => exact absurd (List.infix_nil.mp inside) filled
  | found rest =>
      have shorter : (replaceAll old [] rest).length ≤ rest.length :=
        length_replaceAll_le (Nat.zero_le _) rest
      have some_char := List.length_pos_iff.mpr filled
      rw [replaceAll_append_self filled, List.nil_append, List.length_append]
      omega
  | other c rest absent ih =>
      have later := (List.infix_cons_iff.mp inside).resolve_left absent
      rw [replaceAll_cons absent, List.length_cons, List.length_cons]
      exact Nat.succ_lt_succ (ih later)

/-! ### Trimming -/

/-- Trimming makes no text longer. -/
theorem length_trim_le (text : List Char) : (trim text).length ≤ text.length := by
  have front : (trimStart text).length ≤ text.length := (List.dropWhile_sublist _).length_le
  have back : ((trimStart text).reverse.dropWhile isBlank).length ≤
      (trimStart text).reverse.length := (List.dropWhile_sublist _).length_le
  rw [trim, trimEnd, List.length_reverse]
  rw [List.length_reverse] at back
  exact back.trans front

/-- A part without such characters stays when those at the front of a text are dropped. -/
theorem infix_dropWhile_iff (filled : part ≠ []) (kept : ∀ c ∈ part, p c = false) :
    part <:+: cs.dropWhile p ↔ part <:+: cs := by
  refine ⟨fun inside => inside.trans (List.dropWhile_suffix p).isInfix, fun inside => ?_⟩
  induction cs with
  | nil => exact inside
  | cons c cs ih =>
      by_cases dropped : p c = true
      · rw [List.dropWhile_cons_of_pos dropped]
        rcases List.infix_cons_iff.mp inside with begins | later
        · obtain ⟨d, part, rfl⟩ := List.exists_cons_of_ne_nil filled
          obtain ⟨rfl, -⟩ := List.cons_prefix_cons.mp begins
          exact absurd dropped (Bool.eq_false_iff.mp (kept d List.mem_cons_self))
        · exact ih later
      · rwa [List.dropWhile_cons_of_neg dropped]

/-- Trimming keeps every part that has no blanks. -/
theorem infix_trim_iff (filled : part ≠ []) (visible : ∀ c ∈ part, isBlank c = false) :
    part <:+: trim cs ↔ part <:+: cs := by
  have backwards : ∀ c ∈ part.reverse, isBlank c = false := fun c member =>
    visible c (List.mem_reverse.mp member)
  rw [trim, trimEnd, ← List.reverse_infix, List.reverse_reverse,
    infix_dropWhile_iff (by simpa using filled) backwards, List.reverse_infix, trimStart,
    infix_dropWhile_iff filled visible]

/-- A character that is not blank is never trimmed off the end with what is behind it. -/
theorem trimEnd_cons (visible : isBlank c = false) : trimEnd (c :: cs) = c :: trimEnd cs := by
  have last : [c].dropWhile isBlank = [c] := List.dropWhile_cons_of_neg (by simp [visible])
  have kept : (cs.reverse ++ [c]).dropWhile isBlank = cs.reverse.dropWhile isBlank ++ [c] := by
    rw [List.dropWhile_append, last]
    split
    · next none => rw [List.isEmpty_iff.mp none, List.nil_append]
    · rfl
  rw [trimEnd, List.reverse_cons, kept, List.reverse_append, List.reverse_singleton, trimEnd,
    List.singleton_append]

/-- What is trimmed at the end is so already the second time. -/
theorem trimEnd_trimEnd (cs : List Char) : trimEnd (trimEnd cs) = trimEnd cs :=
  List.rdropWhile_idempotent isBlank cs

/-- A trimmed text is trimmed. -/
theorem trim_trim (cs : List Char) : trim (trim cs) = trim cs := by
  have first := List.head?_dropWhile_not isBlank cs
  rw [trim, trim, trimStart, trimStart]
  cases front : cs.dropWhile isBlank with
  | nil => rfl
  | cons c rest =>
      have visible : isBlank c = false := by simpa [front] using first
      rw [trimEnd_cons visible, List.dropWhile_cons_of_neg (by simp [visible]),
        trimEnd_cons visible, trimEnd_trimEnd]

end TaggedMemos.Text

namespace TaggedMemos.Tag

open Text

variable {path typed : String}

/-- A marker is stripped in two passes, and then the text is trimmed. -/
theorem toList_stripMarker (content path : String) :
    (stripMarker content path).toList =
      trim (replaceAll (TagPath.marker path).toList []
        (replaceAll ((TagPath.marker path).toList ++ [' ']) [] content.toList)) := by
  rw [stripMarker, String.toList_ofList]

/-- A text without markers, and without blanks at its ends, is stripped already. -/
theorem stripMarker_eq_self {content : String}
    (absent : ¬ (TagPath.marker path).toList <:+: content.toList)
    (trimmed : trim content.toList = content.toList) : stripMarker content path = content := by
  have absent' : ¬ (TagPath.marker path).toList ++ [' '] <:+: content.toList := fun inside =>
    absent ((List.prefix_append _ _).isInfix.trans inside)
  rw [← String.toList_inj, toList_stripMarker, replaceAll_eq_self absent',
    replaceAll_eq_self absent, trimmed]

/-- A text with a marker gets shorter. -/
theorem length_stripMarker_lt {content : String}
    (inside : (TagPath.marker path).toList <:+: content.toList) :
    (stripMarker content path).toList.length < content.toList.length := by
  have filled : (TagPath.marker path).toList ≠ [] := by simp [toList_marker]
  have none_longer : ∀ old text : List Char, (replaceAll old [] text).length ≤ text.length :=
    fun _ => length_replaceAll_le (Nat.zero_le _)
  rw [toList_stripMarker]
  refine (length_trim_le _).trans_lt ?_
  by_cases spaced : (TagPath.marker path).toList ++ [' '] <:+: content.toList
  · have filled' := List.append_ne_nil_of_left_ne_nil filled [' ']
    exact (none_longer _ _).trans_lt (length_replaceAll_lt filled' spaced)
  · rw [replaceAll_eq_self spaced]
    exact length_replaceAll_lt filled inside

/-- **When stripping leaves a marker.** It does exactly if one is joined in the second pass: in what
the first pass has left, the beginning of a marker stands in front of a marker, and its end behind.
That takes a marker in the text itself that stands directly behind the beginning of one. Stripping
the result again changes nothing exactly if no marker is left. -/
theorem marker_left_iff (accepted : TagPath.validate typed = .ok path) (content : String) :
    let marker := (TagPath.marker path).toList
    (marker <:+: (stripMarker content path).toList ↔
      IsJoined marker marker (replaceAll (marker ++ [' ']) [] content.toList)) ∧
    (marker <:+: (stripMarker content path).toList → IsNested marker content.toList) ∧
    (stripMarker (stripMarker content path) path = stripMarker content path ↔
      ¬ marker <:+: (stripMarker content path).toList) := by
  intro marker
  have spelled : marker = '#' :: (TagPath.withoutSlash path).toList := toList_marker path
  have filled : marker ≠ [] := spelled ▸ List.cons_ne_nil _ _
  have visible : ∀ c ∈ marker, isBlank c = false := by
    obtain ⟨canonical, chars⟩ := TagPath.isCanonical_of_validate accepted
    rw [spelled, List.forall_mem_cons]
    refine ⟨by decide, fun c member => (chars c ?_).1⟩
    exact canonical.toList_eq ▸ List.mem_cons_of_mem _ member
  have left_iff : marker <:+: (stripMarker content path).toList ↔
      IsJoined marker marker (replaceAll (marker ++ [' ']) [] content.toList) := by
    rw [toList_stripMarker, infix_trim_iff filled visible]
    change marker <:+: replaceAll marker [] (replaceAll (marker ++ [' ']) [] _) ↔ _
    rw [spelled]
    exact marker_infix_replaceAll_iff (not_mem_withoutSlash accepted)
  refine ⟨left_iff, fun left => (left_iff.mp left).isNested.of_replaceAll, fun same left => ?_,
    fun absent => ?_⟩
  · have shorter := length_stripMarker_lt left
    rw [same] at shorter
    exact lt_irrefl _ shorter
  · refine stripMarker_eq_self absent ?_
    rw [toList_stripMarker, trim_trim]

/-- A marker joined in the first pass goes in the second, and one joined in the second stays. -/
theorem marker_left_iff_joined :
    let content := "##a a and ##aa"
    TagPath.validate "a" = .ok "/a" ∧ stripMarker content "/a" = "and #a" ∧
      (TagPath.marker "/a").toList <:+: (stripMarker content "/a").toList ∧
      stripMarker (stripMarker content "/a") "/a" ≠ stripMarker content "/a" := by
  intro content
  have accepted : TagPath.validate "a" = .ok "/a" := by decide +kernel
  obtain ⟨left_iff, -, again_iff⟩ := marker_left_iff accepted content
  have left := left_iff.mpr
    ⟨"#a and ".toList, ['#'], ['a'], ['a'], by decide +kernel, by simp, by simp,
      by decide +kernel, by decide +kernel⟩
  exact ⟨accepted, by decide +kernel, left, fun same => again_iff.mp same left⟩

/-- A text that has a marker after it was stripped, and none after it was stripped again. -/
theorem stripping_joins_marker :
    TagPath.validate "a" = .ok "/a" ∧
      (TagPath.marker "/a").toList <:+: (stripMarker "##aa" "/a").toList ∧
      stripMarker (stripMarker "##aa" "/a") "/a" ≠ stripMarker "##aa" "/a" := by
  decide +kernel

end TaggedMemos.Tag
