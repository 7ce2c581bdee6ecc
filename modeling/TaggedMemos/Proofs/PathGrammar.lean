import TaggedMemos.Proofs.Path
import TaggedMemos.Tag.Validation

/-!
# The Grammar of Typed Paths

The paths that callers type are validated by a series of checks, after a slash is taken off at each
end. What is accepted has a simple form: some segments with one slash between each and the next, and
perhaps one slash before and one behind them. A validated path is canonical.

The checks overlap on texts of blanks and slashes. For instance `//` has no segments, while `///`
has an empty one. Of several faults the first in the order of the checks is reported.

## Main results

* `exists_eq_inner`: what is taken off a typed path.
* `validate_eq_ok_iff`: which paths are accepted, and what becomes of them.
* `isCanonical_of_validate`: a validated path is canonical, and free of blanks and number signs.
* `validate_eq_self_iff`: which paths are validated as they are.
* `two_slashes_of_validate`: where an empty segment is reported.
* `validate_grammar`: the form of the paths that are accepted, and the fault of the others.
-/

namespace TaggedMemos.TagPath

open Text

variable {path input : String} {cs body : List Char} {c : Char}

/-! ### Slashes at the ends -/

/-- A typed path without the slash in front and the one at its end. -/
def inner (cs : List Char) : List Char :=
  withoutLastSlash ((stripPrefix? ['/'] cs).getD cs)

/-- A slash that may be there or not. -/
def IsOptionalSlash (cs : List Char) : Prop :=
  cs = [] ∨ cs = ['/']

/-- One slash is taken off the end. -/
theorem withoutLastSlash_concat (cs : List Char) : withoutLastSlash (cs ++ ['/']) = cs := by
  simp [withoutLastSlash]

/-- A path that does not end with a slash stays as it is. -/
theorem withoutLastSlash_eq_self (other : cs.getLast? ≠ some '/') : withoutLastSlash cs = cs := by
  rw [withoutLastSlash]
  split
  · next before reversed =>
      refine absurd ?_ other
      rw [← List.head?_reverse, reversed, List.head?_cons]
  · rfl

/-- No slash can be taken off the front exactly if there is none. -/
theorem stripPrefix?_slash_eq_none : stripPrefix? ['/'] cs = none ↔ cs.head? ≠ some '/' := by
  cases cs with
  | nil => simp [stripPrefix?]
  | cons c cs => simp [stripPrefix?, eq_comm]

/-- At the end of a text at most one slash is taken off. -/
theorem exists_eq_withoutLastSlash (cs : List Char) :
    ∃ back, IsOptionalSlash back ∧ cs = withoutLastSlash cs ++ back ∧
      (back = [] → (withoutLastSlash cs).getLast? ≠ some '/') := by
  by_cases slash : cs.getLast? = some '/'
  · obtain ⟨before, rfl⟩ := List.getLast?_eq_some_iff.mp slash
    rw [withoutLastSlash_concat]
    exact ⟨['/'], .inr rfl, rfl, fun none => by cases none⟩
  · rw [withoutLastSlash_eq_self slash]
    exact ⟨[], .inl rfl, (List.append_nil cs).symm, fun _ => slash⟩

/-- **What is taken off a typed path** is one slash at each end, if there is one. -/
theorem exists_eq_inner (cs : List Char) :
    ∃ front back, IsOptionalSlash front ∧ IsOptionalSlash back ∧ cs = front ++ inner cs ++ back ∧
      (front = [] → (inner cs).head? ≠ some '/') ∧
      (back = [] → (inner cs).getLast? ≠ some '/') := by
  cases stripped : stripPrefix? ['/'] cs with
  | some rest =>
      obtain ⟨back, optional, whole, last⟩ := exists_eq_withoutLastSlash rest
      rw [inner, stripped, Option.getD_some]
      refine ⟨['/'], back, .inr rfl, optional, ?_, fun none => (by cases none), last⟩
      rw [List.append_assoc, ← whole]
      exact stripPrefix?_eq_some.mp stripped
  | none =>
      obtain ⟨back, optional, whole, last⟩ := exists_eq_withoutLastSlash cs
      rw [inner, stripped, Option.getD_none]
      refine ⟨[], back, .inl rfl, optional, whole, fun _ first => ?_, last⟩
      refine stripPrefix?_slash_eq_none.mp stripped ?_
      rw [whole, List.head?_append, first, Option.some_or]

/-- What is left of a text with slashes at its ends is the text without them. -/
theorem inner_eq {front back : List Char} (optional : IsOptionalSlash front)
    (optional' : IsOptionalSlash back) (filled : body ≠ []) (first : body.head? ≠ some '/')
    (last : body.getLast? ≠ some '/') : inner (front ++ body ++ back) = body := by
  have stripped : (stripPrefix? ['/'] (front ++ body ++ back)).getD (front ++ body ++ back) =
      body ++ back := by
    rcases optional with rfl | rfl
    · have none : stripPrefix? ['/'] (body ++ back) = none := by
        rw [stripPrefix?_slash_eq_none]
        cases body with
        | nil => exact absurd rfl filled
        | cons c body => exact first
      rw [List.nil_append, none, Option.getD_none]
    · rfl
  rw [inner, stripped]
  rcases optional' with rfl | rfl
  · rw [List.append_nil, withoutLastSlash_eq_self last]
  · exact withoutLastSlash_concat body

/-- What is left of a text is a part of it. -/
theorem mem_of_mem_inner (member : c ∈ inner cs) : c ∈ cs := by
  obtain ⟨front, back, -, -, whole, -⟩ := exists_eq_inner cs
  rw [whole]
  exact List.mem_append_left _ (List.mem_append_right _ member)

/-! ### Accepted paths -/

/-- The checks in their order. -/
theorem validate_eq (input : String) :
    validate input =
      if isBlankText input.toList then .error .empty
      else match input.toList.find? isBlank with
        | some c => .error (.blank c)
        | none =>
          if input.toList.contains '#' then .error .sigil
          else if (inner input.toList).isEmpty then .error .noSegments
          else if (splitAt '/' (inner input.toList)).any (·.isEmpty) then .error .emptySegment
          else .ok (normalize (String.ofList (inner input.toList))) :=
  rfl

/-- **Which paths are accepted**: those without blanks and number signs in which slashes leave no
gaps, once those at the ends are taken off. -/
theorem validate_eq_ok_iff :
    validate input = .ok path ↔
      (∀ c ∈ input.toList, isBlank c = false ∧ c ≠ '#') ∧
        (splitAt '/' (inner input.toList)).any (·.isEmpty) = false ∧
        path = normalize (String.ofList (inner input.toList)) := by
  rw [validate_eq]
  constructor
  · intro accepted
    split at accepted
    · cases accepted
    split at accepted
    · cases accepted
    next noBlank =>
      split at accepted
      · cases accepted
      next noSign =>
        split at accepted
        · cases accepted
        split at accepted
        · cases accepted
        next noGap =>
          refine ⟨fun c member => ⟨?_, ?_⟩, Bool.eq_false_iff.mpr noGap,
            (Except.ok.inj accepted).symm⟩
          · simpa using List.find?_eq_none.mp noBlank c member
          · rintro rfl
            exact noSign (List.contains_iff_mem.mpr member)
  · rintro ⟨plain, noGap, rfl⟩
    have filled : (inner input.toList).isEmpty = false := by
      cases whole : inner input.toList with
      | nil => simp [whole, splitAt] at noGap
      | cons c cs => rfl
    have notBlank : isBlankText input.toList = false := by
      cases whole : input.toList with
      | nil => simp [whole, inner, stripPrefix?, withoutLastSlash] at filled
      | cons c cs => simp [isBlankText, (plain c (whole ▸ List.mem_cons_self)).1]
    have noBlank : input.toList.find? isBlank = none :=
      List.find?_eq_none.mpr fun c member => by simp [(plain c member).1]
    have noSign : input.toList.contains '#' = false := by
      rw [List.contains_eq_mem, decide_eq_false_iff_not]
      exact fun sign => (plain '#' sign).2 rfl
    simp only [notBlank, noBlank, noSign, filled, noGap, Bool.false_eq_true, if_false]

/-- Cutting a text at the slashes gives its segments if it leaves no gaps. -/
theorem pieces_of_noGap (noGap : (splitAt '/' body).any (·.isEmpty) = false) :
    pieces body = splitAt '/' body := by
  rw [pieces, List.filter_eq_self]
  intro piece member
  simpa using List.any_eq_false.mp noGap piece member

/-- A path without empty pieces is canonical when it is normalized. -/
theorem isCanonical_normalize (noGap : (splitAt '/' body).any (·.isEmpty) = false) :
    IsCanonical (normalize (String.ofList body)) := by
  refine (normalize_cases _).resolve_left fun root => ?_
  have filled : pieces body ≠ [] := pieces_of_noGap noGap ▸ splitAt_ne_nil '/' body
  obtain ⟨first, others, whole⟩ := List.exists_cons_of_ne_nil filled
  have part := (of_mem_pieces (whole ▸ List.mem_cons_self : first ∈ pieces body)).1
  have text := congrArg String.toList root
  rw [normalize, String.toList_ofList, String.toList_ofList, whole] at text
  simp [written, part.1] at text

/-- A validated path is canonical, and has no blanks and no number signs. -/
theorem isCanonical_of_validate (accepted : validate input = .ok path) :
    IsCanonical path ∧ ∀ c ∈ path.toList, isBlank c = false ∧ c ≠ '#' := by
  obtain ⟨plain, noGap, rfl⟩ := validate_eq_ok_iff.mp accepted
  refine ⟨isCanonical_normalize noGap, fun c member => ?_⟩
  rcases of_mem_normalize member with rfl | member
  · decide
  · rw [String.toList_ofList] at member
    exact plain c (mem_of_mem_inner member)

/-! ### Paths validated as they are -/

/-- Cutting a canonical path after its first slash leaves no gaps. -/
theorem IsCanonical.noGap (canonical : IsCanonical path) :
    (splitAt '/' (withoutSlash path).toList).any (·.isEmpty) = false := by
  have front := canonical.toList_eq
  obtain ⟨segments, -, parts, written⟩ := canonical
  have cut : splitAt '/' ([] ++ segments.flatMap ('/' :: ·)) = [] :: segments :=
    splitAt_flatMap List.not_mem_nil fun s member => (parts s member).2
  rw [List.nil_append, ← written, front, splitAt, if_pos rfl] at cut
  rw [(List.cons.inj cut).2, List.any_eq_false]
  intro s member
  simpa using (parts s member).1

/-- Slashes at its ends are taken off the text in the marker of a canonical path, and nothing
more. -/
theorem IsCanonical.inner_eq {front back : List Char} (canonical : IsCanonical path)
    (optional : IsOptionalSlash front) (optional' : IsOptionalSlash back) :
    inner (front ++ (withoutSlash path).toList ++ back) = (withoutSlash path).toList := by
  have whole := canonical.toList_eq
  have noGap := canonical.noGap
  have last := canonical.getLast?_ne
  generalize (withoutSlash path).toList = body at whole noGap
  refine TagPath.inner_eq optional optional' ?_ (fun slash => ?_) fun slash => last ?_
  · rintro rfl
    cases noGap
  · obtain ⟨rest, rfl⟩ := List.head?_eq_some_iff.mp slash
    cases noGap
  · rw [whole, List.getLast?_cons, slash]
    rfl

/-- A canonical path may be typed without the slash in front, and with one at its end. -/
theorem validate_of_canonical {front back : List Char} (canonical : IsCanonical path)
    (plain : ∀ c ∈ path.toList, isBlank c = false ∧ c ≠ '#') (optional : IsOptionalSlash front)
    (optional' : IsOptionalSlash back)
    (typed : input.toList = front ++ (withoutSlash path).toList ++ back) :
    validate input = .ok path := by
  have left := canonical.inner_eq optional optional'
  have slash : ∀ {ends : List Char}, IsOptionalSlash ends → ∀ c ∈ ends, c = '/' := by
    rintro ends (rfl | rfl) c member
    · cases member
    · exact List.mem_singleton.mp member
  rw [validate_eq_ok_iff, typed, left]
  refine ⟨fun c member => ?_, canonical.noGap, ?_⟩
  · rcases List.mem_append.mp member with member | member
    · rcases List.mem_append.mp member with member | member
      · rw [slash optional c member]
        decide
      · exact plain c (canonical.toList_eq ▸ List.mem_cons_of_mem _ member)
    · rw [slash optional' c member]
      decide
  · rw [String.ofList_toList, canonical.normalize_withoutSlash]

/-- **Which paths are validated as they are**: canonical ones without blanks and number signs. -/
theorem validate_eq_self_iff :
    validate path = .ok path ↔
      IsCanonical path ∧ ∀ c ∈ path.toList, isBlank c = false ∧ c ≠ '#' := by
  refine ⟨isCanonical_of_validate, fun ⟨canonical, plain⟩ => ?_⟩
  exact validate_of_canonical canonical plain (.inr rfl) (.inl rfl)
    (by simpa using canonical.toList_eq)

/-! ### The form of accepted paths -/

/-- A text typed for some segments: they are joined by slashes, with perhaps one more slash at
either end. -/
structure IsTypedFor (segments : List String) (input : String) : Prop where
  /-- There is a segment. -/
  filled : segments ≠ []
  /-- Segments are not empty, and have no slashes, number signs and blanks. -/
  plain : ∀ s ∈ segments, s ≠ "" ∧ ∀ c ∈ s.toList, c ≠ '/' ∧ c ≠ '#' ∧ isBlank c = false
  /-- One slash stands between each segment and the next. -/
  joined : ∃ front back, front ∈ ["", "/"] ∧ back ∈ ["", "/"] ∧
    input = front ++ "/".intercalate segments ++ back

variable {segments : List String}

/-- Joined segments with a slash in front have a slash in front of each. -/
theorem toList_joined (filled : segments ≠ []) :
    ("/" ++ "/".intercalate segments).toList =
      (segments.map String.toList).flatMap ('/' :: ·) := by
  induction segments with
  | nil => exact absurd rfl filled
  | cons first others ih =>
      cases others with
      | nil => simp
      | cons second others =>
          have later := ih (List.cons_ne_nil second others)
          rw [String.toList_append] at later
          rw [String.intercalate_cons_cons, String.toList_append, String.toList_append,
            String.toList_append, List.append_assoc, later]
          simp

/-- Cutting a text at the slashes and joining the pieces gives the text back. -/
theorem intercalate_splitAt (body : List Char) :
    "/".intercalate ((splitAt '/' body).map String.ofList) = String.ofList body := by
  obtain ⟨first, others, split⟩ := List.exists_cons_of_ne_nil (splitAt_ne_nil '/' body)
  have filled : (splitAt '/' body).map String.ofList ≠ [] := by simp [split]
  have whole : (splitAt '/' body).flatMap ('/' :: ·) = '/' :: body := by
    rw [split, List.flatMap_cons, List.cons_append, ← eq_of_splitAt split]
  have joined := toList_joined filled
  have kept : String.toList ∘ String.ofList = id := funext fun piece => String.toList_ofList
  rw [List.map_map, kept, List.map_id, whole, String.toList_append] at joined
  exact String.toList_inj.mp (by simpa using joined)

/-- A typed path stands for a canonical one. -/
theorem IsTypedFor.isCanonical (typed : IsTypedFor segments input) :
    IsCanonical ("/" ++ "/".intercalate segments) := by
  refine ⟨segments.map String.toList, by simpa using typed.filled, fun s member => ?_,
    toList_joined typed.filled⟩
  obtain ⟨segment, part, rfl⟩ := List.mem_map.mp member
  obtain ⟨filled, chars⟩ := typed.plain segment part
  exact ⟨by simpa using filled, fun slash => (chars '/' slash).1 rfl⟩

/-- What is typed for some segments is accepted. -/
theorem IsTypedFor.validate_eq (typed : IsTypedFor segments input) :
    validate input = .ok ("/" ++ "/".intercalate segments) := by
  have optional : ∀ {ends : String}, ends ∈ ["", "/"] → IsOptionalSlash ends.toList := by
    simp [IsOptionalSlash]
  have canonical := typed.isCanonical
  have marked : (withoutSlash ("/" ++ "/".intercalate segments)).toList =
      ("/".intercalate segments).toList := by
    simp [withoutSlash, stripPrefix?]
  obtain ⟨front, back, slash, slash', joined⟩ := typed.joined
  refine validate_of_canonical canonical (fun c member => ?_) (optional slash) (optional slash') ?_
  · rw [toList_joined typed.filled] at member
    obtain ⟨s, part, here⟩ := List.mem_flatMap.mp member
    obtain ⟨segment, typedPart, rfl⟩ := List.mem_map.mp part
    rcases List.mem_cons.mp here with rfl | here
    · decide
    · obtain ⟨-, noSign, noBlank⟩ := (typed.plain segment typedPart).2 c here
      exact ⟨noBlank, noSign⟩
  · rw [marked, joined, String.toList_append, String.toList_append]

/-- What is accepted was typed for some segments. -/
theorem exists_isTypedFor (accepted : validate input = .ok path) :
    ∃ segments, IsTypedFor segments input := by
  obtain ⟨plain, noGap, -⟩ := validate_eq_ok_iff.mp accepted
  obtain ⟨front, back, optional, optional', whole, -⟩ := exists_eq_inner input.toList
  have slash : ∀ {ends : List Char}, IsOptionalSlash ends → String.ofList ends ∈ ["", "/"] := by
    rintro ends (rfl | rfl) <;> simp
  refine ⟨(splitAt '/' (inner input.toList)).map String.ofList, ?_, fun s member => ?_,
    String.ofList front, String.ofList back, slash optional, slash optional', ?_⟩
  · simpa using splitAt_ne_nil '/' _
  · obtain ⟨piece, cut, rfl⟩ := List.mem_map.mp member
    refine ⟨by simpa using List.any_eq_false.mp noGap piece cut, fun c here => ?_⟩
    rw [String.toList_ofList] at here
    obtain ⟨noSlash, part⟩ := of_mem_splitAt cut c here
    obtain ⟨noBlank, noSign⟩ := plain c (mem_of_mem_inner part)
    exact ⟨noSlash, noSign, noBlank⟩
  · rw [intercalate_splitAt, ← String.ofList_append, ← String.ofList_append, ← whole,
      String.ofList_toList]

/-! ### The faults of other paths -/

/-- The place of a fault in the order in which faults are looked for. -/
def Rejection.rank : Rejection → Nat
  | empty => 0
  | blank _ => 1
  | sigil => 2
  | noSegments => 3
  | emptySegment => 4

/-- The texts that a fault can be reported for, if no earlier one is. The last fault is that of all
the texts that are not accepted. -/
def Rejection.AppliesTo (input : String) : Rejection → Prop
  | empty => ∀ c ∈ input.toList, isBlank c = true
  | blank c => ∃ before after, input.toList = before ++ c :: after ∧ isBlank c = true ∧
      ∀ d ∈ before, isBlank d = false
  | sigil => '#' ∈ input.toList
  | noSegments => input = "/" ∨ input = "//"
  | emptySegment => True

/-- The first of the faults of a text. -/
def Rejection.IsFirst (input : String) (fault : Rejection) : Prop :=
  fault.AppliesTo input ∧
    ∀ earlier : Rejection, earlier.rank < fault.rank → ¬ earlier.AppliesTo input

variable {fault fault' : Rejection}

/-- A blank is reported exactly if it is the first one. -/
theorem Rejection.appliesTo_blank :
    (blank c).AppliesTo input ↔ input.toList.find? isBlank = some c := by
  rw [List.find?_eq_some_iff_append, AppliesTo]
  constructor
  · rintro ⟨before, after, whole, here, early⟩
    exact ⟨here, before, after, whole, fun d member => by rw [early d member, Bool.not_false]⟩
  · rintro ⟨here, before, after, whole, early⟩
    exact ⟨before, after, whole, here, fun d member => by simpa using early d member⟩

/-- A text has one first fault only. -/
theorem Rejection.IsFirst.unique (first : fault.IsFirst input) (first' : fault'.IsFirst input) :
    fault = fault' := by
  have same : fault.rank = fault'.rank := by
    rcases Nat.lt_trichotomy fault.rank fault'.rank with lower | same | higher
    · exact absurd first.1 (first'.2 fault lower)
    · exact same
    · exact absurd first'.1 (first.2 fault' higher)
  cases fault with
  | blank c =>
      cases fault' with
      | blank c' =>
          have found := appliesTo_blank.mp first.1
          rw [appliesTo_blank.mp first'.1] at found
          rw [Option.some.inj found]
      | _ => cases same
  | _ => cases fault' <;> first | rfl | cases same

/-- Nothing is left of one slash and of two. -/
theorem inner_eq_nil_iff : inner cs = [] ↔ cs = [] ∨ cs = ['/'] ∨ cs = ['/', '/'] := by
  constructor
  · intro none
    obtain ⟨front, back, optional, optional', whole, -⟩ := exists_eq_inner cs
    rw [none, List.append_nil] at whole
    rcases optional with rfl | rfl <;> rcases optional' with rfl | rfl <;> simp [whole]
  · rintro (rfl | rfl | rfl) <;> rfl

/-- A text that is refused is refused for its first fault. -/
theorem isFirst_of_validate (refused : validate input = .error fault) : fault.IsFirst input := by
  rw [TagPath.validate_eq] at refused
  -- Each check that is passed rules out one fault, and the later ones build on that.
  split at refused
  · next allBlank =>
      obtain rfl := Except.error.inj refused
      exact ⟨List.all_eq_true.mp allBlank, fun earlier lower => absurd lower (Nat.not_lt_zero _)⟩
  next someBlack =>
  have notEmpty : ¬ Rejection.empty.AppliesTo input := fun all =>
    someBlack (List.all_eq_true.mpr all)
  split at refused
  · next c found =>
      obtain rfl := Except.error.inj refused
      refine ⟨Rejection.appliesTo_blank.mpr found, fun earlier lower => ?_⟩
      cases earlier with
      | empty => exact notEmpty
      | _ => exact absurd lower (by simp [Rejection.rank])
  next noneFound =>
  have notBlank : ∀ c, ¬ (Rejection.blank c).AppliesTo input := by
    intro c found
    cases noneFound.symm.trans (Rejection.appliesTo_blank.mp found)
  split at refused
  · next sign =>
      obtain rfl := Except.error.inj refused
      refine ⟨List.contains_iff_mem.mp sign, fun earlier lower => ?_⟩
      cases earlier with
      | empty => exact notEmpty
      | blank c => exact notBlank c
      | _ => exact absurd lower (by decide)
  next noSign =>
  have notSigil : ¬ Rejection.sigil.AppliesTo input := fun sign =>
    noSign (List.contains_iff_mem.mpr sign)
  split at refused
  · next none =>
      obtain rfl := Except.error.inj refused
      refine ⟨?_, fun earlier lower => ?_⟩
      · rcases inner_eq_nil_iff.mp (List.isEmpty_iff.mp none) with none | one | two
        · exact absurd (by simp [Rejection.AppliesTo, none]) notEmpty
        · exact .inl (String.toList_inj.mp one)
        · exact .inr (String.toList_inj.mp two)
      · cases earlier with
        | empty => exact notEmpty
        | blank c => exact notBlank c
        | sigil => exact notSigil
        | _ => exact absurd lower (by decide)
  next filled =>
  have notSlashes : ¬ Rejection.noSegments.AppliesTo input := by
    rintro (rfl | rfl) <;> exact filled rfl
  split at refused
  · obtain rfl := Except.error.inj refused
    refine ⟨trivial, fun earlier lower => ?_⟩
    cases earlier with
    | empty => exact notEmpty
    | blank c => exact notBlank c
    | sigil => exact notSigil
    | noSegments => exact notSlashes
    | emptySegment => exact absurd lower (Nat.lt_irrefl _)
  · cases refused

/-- Cutting a text at the slashes leaves a gap only if there is a slash at an end of it, or two
follow each other. -/
theorem slashes_of_mem_splitAt (gap : [] ∈ splitAt '/' body) :
    body = [] ∨ body.head? = some '/' ∨ body.getLast? = some '/' ∨ ['/', '/'] <:+: body := by
  obtain ⟨first, others, split⟩ := List.exists_cons_of_ne_nil (splitAt_ne_nil '/' body)
  have whole := eq_of_splitAt split
  rw [split, List.mem_cons] at gap
  rcases gap with rfl | gap
  · cases others with
    | nil => exact .inl (by simpa using whole)
    | cons next others => exact .inr (.inl (by simp [whole]))
  · obtain ⟨before, after, rfl⟩ := List.append_of_mem gap
    refine .inr (.inr ?_)
    cases after with
    | nil => exact .inl (by simp [whole])
    | cons next after =>
        exact .inr ⟨first ++ before.flatMap ('/' :: ·), next ++ after.flatMap ('/' :: ·),
          by simp [whole]⟩

/-- An empty segment is reported of a text in which two slashes follow each other. -/
theorem two_slashes_of_validate (refused : validate input = .error .emptySegment) :
    ['/', '/'] <:+: input.toList := by
  obtain ⟨-, early⟩ := isFirst_of_validate refused
  have filled : inner input.toList ≠ [] := by
    intro none
    rcases inner_eq_nil_iff.mp none with none | one | two
    · exact early .empty (by decide) (by simp [Rejection.AppliesTo, none])
    · exact early .noSegments (by decide) (.inl (String.toList_inj.mp one))
    · exact early .noSegments (by decide) (.inr (String.toList_inj.mp two))
  have noBlank : input.toList.find? isBlank = none := Option.eq_none_iff_forall_ne_some.mpr
    fun c found => early (.blank c) (by simp [Rejection.rank]) (Rejection.appliesTo_blank.mpr found)
  have noSign : '#' ∉ input.toList := early .sigil (by decide)
  have gap : [] ∈ splitAt '/' (inner input.toList) := by
    refine Decidable.byContradiction fun noGap => ?_
    have noGaps : (splitAt '/' (inner input.toList)).any (·.isEmpty) = false := by
      refine List.any_eq_false.mpr fun piece member empty => noGap ?_
      rwa [List.isEmpty_iff.mp empty] at member
    refine absurd (validate_eq_ok_iff.mpr ⟨fun c member => ⟨?_, ?_⟩, noGaps, rfl⟩)
      (by simp [refused])
    · simpa using List.find?_eq_none.mp noBlank c member
    · rintro rfl
      exact noSign member
  obtain ⟨front, back, optional, optional', whole, first, last⟩ := exists_eq_inner input.toList
  rw [whole]
  rcases slashes_of_mem_splitAt gap with none | slash | slash | two
  · exact absurd none filled
  · obtain rfl := optional.resolve_left fun none => first none slash
    obtain ⟨rest, rest_eq⟩ := List.head?_eq_some_iff.mp slash
    exact ⟨[], rest ++ back, by simp [rest_eq]⟩
  · obtain rfl := optional'.resolve_left fun none => last none slash
    obtain ⟨rest, rest_eq⟩ := List.getLast?_eq_some_iff.mp slash
    exact ⟨front ++ rest, [], by simp [rest_eq]⟩
  · exact two.trans ⟨front, back, rfl⟩

/-- **The grammar of typed paths.** Accepted is what is typed for some segments, and what becomes of
it is the canonical path of these segments, which is validated as it is. Everything else is refused,
for the first of its faults. -/
theorem validate_grammar (input : String) :
    (∀ path, validate input = .ok path ↔
      ∃ segments, IsTypedFor segments input ∧ path = "/" ++ "/".intercalate segments) ∧
    (∀ path, validate input = .ok path → validate path = .ok path) ∧
    (∀ fault, validate input = .error fault ↔
      (¬ ∃ segments, IsTypedFor segments input) ∧ fault.IsFirst input) := by
  refine ⟨fun path => ⟨fun accepted => ?_, ?_⟩, fun path accepted => ?_, fun fault =>
    ⟨fun refused => ⟨?_, isFirst_of_validate refused⟩, fun ⟨other, first⟩ => ?_⟩⟩
  · obtain ⟨segments, typed⟩ := exists_isTypedFor accepted
    exact ⟨segments, typed, Except.ok.inj (accepted.symm.trans typed.validate_eq)⟩
  · rintro ⟨segments, typed, rfl⟩
    exact typed.validate_eq
  · exact validate_eq_self_iff.mpr (isCanonical_of_validate accepted)
  · rintro ⟨segments, typed⟩
    cases refused.symm.trans typed.validate_eq
  · cases outcome : validate input with
    | ok path => exact absurd (exists_isTypedFor outcome) other
    | error reported => rw [first.unique (isFirst_of_validate outcome)]

/-- A path typed without the slash in front, and a text that is refused for its blank. -/
theorem validate_grammar_work :
    IsTypedFor ["work", "p1"] "work/p1/" ∧ validate "work/p1/" = .ok "/work/p1" ∧
      (¬ ∃ segments, IsTypedFor segments "/# ") ∧ (Rejection.blank ' ').IsFirst "/# " := by
  have typed : IsTypedFor ["work", "p1"] "work/p1/" :=
    { filled := by simp
      plain := by simp [isBlank]
      joined := ⟨"", "/", by simp, by simp, by decide +kernel⟩ }
  obtain ⟨accepted, -, -⟩ := validate_grammar "work/p1/"
  obtain ⟨-, -, refused⟩ := validate_grammar "/# "
  obtain ⟨other, first⟩ := (refused (.blank ' ')).mp rfl
  exact ⟨typed, (accepted "/work/p1").mpr ⟨_, typed, rfl⟩, other, first⟩

/-- Two slashes are no segments, and three are an empty one. -/
example : validate "//" = .error .noSegments ∧ validate "///" = .error .emptySegment :=
  ⟨rfl, rfl⟩

end TaggedMemos.TagPath
