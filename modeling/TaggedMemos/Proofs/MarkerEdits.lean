import Mathlib.Data.List.Infix
import TaggedMemos.Proofs.Stripping
import TaggedMemos.Proofs.TagEnds

/-!
# Tags That Outlast Their Marker

An edit of every memo takes one spelling of a marker out of a text, or replaces it, wherever it
stands. A text may show the tag afterwards all the same, and here is told how. It did show the tag
in another spelling before, such as `#/a`, or what is left of it joins to the tag: the beginning of
a spelling stood directly in front of a marker that was taken out, as in `##aa`. Where a marker is
replaced, the new path and what follows it may begin with the tag: in `#a)b` the tag is `a`.

A tag shown is a part of the text together with the character that ends it, and there is such a
character if a line feed is put behind the text.

## Main results

* `hasTag_iff`: a tag shown is a part of the text with a line feed behind.
* `shows_of_stripMarker`: how a tag outlasts the removal of its marker.
* `shows_of_replaceMarker`: how a tag outlasts a replacement of its marker.
-/

namespace TaggedMemos

open Text

variable {name text : List Char} {c : Char} {path new typed typed' : String}

/-! ### The end of a tag as a part of the text -/

/-- A character that may stand behind a tag. -/
def EndsTag (c : Char) : Prop :=
  isTagChar c = true → c = '_'

/-- A text goes on with the end of a tag exactly if a character that ends tags comes next, once a
line feed is put behind. -/
theorem ends_iff {front : List Char} :
    (∃ after, text = front ++ after ∧ Ends after) ↔
      ∃ c, EndsTag c ∧ front ++ [c] <+: text ++ ['\n'] := by
  constructor
  · rintro ⟨after, rfl, ends⟩
    cases after with
    | nil => exact ⟨'\n', fun char => absurd char (by decide), by simp⟩
    | cons c after => exact ⟨c, ends c rfl, after ++ ['\n'], by simp⟩
  · rintro ⟨c, ends, more, whole⟩
    rcases List.eq_nil_or_concat more with rfl | ⟨more, last, rfl⟩
    · rw [List.append_nil] at whole
      obtain ⟨rfl, -⟩ := List.append_inj' whole rfl
      exact ⟨[], by simp, fun _ none => by cases none⟩
    · rw [List.concat_eq_append, ← List.append_assoc] at whole
      obtain ⟨rfl, -⟩ := List.append_inj' whole rfl
      refine ⟨c :: more, by simp, fun d first => ?_⟩
      obtain rfl := Option.some.inj first
      exact ends

/-- A text opens with a name exactly if it opens with the name and a character that ends it, once a
line feed is put behind. -/
theorem opensWith_iff :
    OpensWith name text ↔ IsName name ∧ ∃ c, EndsTag c ∧ name ++ [c] <+: text ++ ['\n'] :=
  and_congr_right fun _ => ends_iff

/-- A tag stands in a text exactly if it is a part of the text with a line feed behind, together
with a character that ends it. -/
theorem hasTag_iff :
    HasTag name text ↔
      IsName name ∧ ∃ c, EndsTag c ∧ '#' :: (name ++ [c]) <:+: text ++ ['\n'] := by
  constructor
  · rintro ⟨before, behind, rfl, opens⟩
    obtain ⟨valid, c, ends, more, whole⟩ := opensWith_iff.mp opens
    refine ⟨valid, c, ends, before, more, ?_⟩
    rw [List.append_assoc, List.append_assoc, List.cons_append, List.cons_append, ← whole]
  · rintro ⟨valid, c, ends, before, more, whole⟩
    have begins : (before ++ '#' :: name) ++ [c] <+: text ++ ['\n'] := ⟨more, by simpa using whole⟩
    obtain ⟨after, rfl, ends⟩ := ends_iff.mpr ⟨c, ends, begins⟩
    exact ⟨before, name ++ after, by simp, valid, after, rfl, ends⟩

/-! ### A character behind a text -/

/-- What lacks a character does not reach to it. -/
theorem prefix_concat_iff {old : List Char} (free : c ∉ old) :
    old <+: text ++ [c] ↔ old <+: text := by
  rw [List.prefix_concat_iff, or_iff_right_iff_imp]
  rintro rfl
  exact absurd (List.mem_append_right _ List.mem_cons_self) free

/-- What lacks a character does not reach to it from anywhere. -/
theorem infix_concat_iff {part : List Char} (free : c ∉ part) :
    part <:+: text ++ [c] ↔ part <:+: text := by
  rw [List.infix_concat_iff, or_iff_right_iff_imp, List.suffix_concat_iff]
  rintro (rfl | ⟨front, rfl, -⟩)
  · exact List.nil_infix
  · exact absurd (List.mem_append_right _ List.mem_cons_self) free

/-- A part that lacks the last character of a text ends before it. -/
theorem exists_of_concat_eq {part before after : List Char} (filled : part ≠ []) (free : c ∉ part)
    (whole : text ++ [c] = before ++ part ++ after) :
    ∃ after', after = after' ++ [c] ∧ text = before ++ part ++ after' := by
  rcases List.eq_nil_or_concat after with rfl | ⟨after, last, rfl⟩
  · rw [List.append_nil, ← List.dropLast_concat_getLast filled, ← List.append_assoc] at whole
    obtain ⟨-, same⟩ := List.append_inj' whole rfl
    exact absurd (List.singleton_inj.mp same ▸ List.getLast_mem filled) free
  · rw [List.concat_eq_append, ← List.append_assoc] at whole
    obtain ⟨rfl, same⟩ := List.append_inj' whole rfl
    exact ⟨after, by rw [List.concat_eq_append, same], rfl⟩

/-- A character that does not occur in what is replaced is kept behind a text. -/
theorem replaceAll_concat {old new : List Char} (filled : old ≠ []) (free : c ∉ old)
    (text : List Char) : replaceAll old new (text ++ [c]) = replaceAll old new text ++ [c] := by
  induction text using replaced_induction old filled with
  | nil =>
      refine replaceAll_eq_self fun inside => filled ?_
      exact List.infix_nil.mp ((infix_concat_iff free).mp inside)
  | found rest ih =>
      rw [List.append_assoc, replaceAll_append_self filled, ih, replaceAll_append_self filled,
        List.append_assoc]
  | other d rest absent ih =>
      have absent' : ¬ old <+: d :: (rest ++ [c]) := by
        rwa [← List.cons_append, prefix_concat_iff free]
      rw [List.cons_append, replaceAll_cons absent', ih, replaceAll_cons absent, List.cons_append]

/-! ### Tags shown after a removal -/

/-- Whether a text opens with a name is told by the name and by the character behind it. -/
theorem opensWith_iff_drop :
    OpensWith name text ↔ name ≠ [] ∧ name.all isTagChar = true ∧ name <+: text ∧
      (text.drop name.length).head?.all (fun c => !isTagChar c || c == '_') = true := by
  have ends_iff : ∀ after, Ends after ↔
      after.head?.all (fun c => !isTagChar c || c == '_') = true := by
    rintro (_ | ⟨c, after⟩)
    · simp [Ends]
    · cases char : isTagChar c <;> simp [Ends, char]
  rw [OpensWith, IsName, and_assoc, ← ends_iff, List.all_eq_true]
  refine and_congr_right fun _ => and_congr_right fun _ => ⟨?_, ?_⟩
  · rintro ⟨after, rfl, ends⟩
    exact ⟨List.prefix_append _ _, by rwa [List.drop_left]⟩
  · rintro ⟨⟨after, rfl⟩, ends⟩
    exact ⟨after, rfl, by rwa [List.drop_left] at ends⟩

instance : Decidable (OpensWith name text) :=
  decidable_of_iff _ opensWith_iff_drop.symm

/-- Another spelling of a tag stands in a text: one that does not begin with the path. -/
def ShowsOtherwise (path : String) (text : List Char) : Prop :=
  ∃ name, HasTag name text ∧ TagPath.normalize (String.ofList name) = path ∧
    ¬ (TagPath.withoutSlash path).toList <+: name

/-- Another spelling is found by a look behind every number sign. -/
theorem showsOtherwise_iff {text : List Char} :
    ShowsOtherwise path text ↔ ∃ behind ∈ text.tails, behind.head? = some '#' ∧
      ∃ name ∈ behind.tail.inits, OpensWith name behind.tail ∧
        TagPath.normalize (String.ofList name) = path ∧
          ¬ (TagPath.withoutSlash path).toList <+: name := by
  constructor
  · rintro ⟨name, ⟨before, behind, rfl, opens⟩, spelled, other⟩
    exact ⟨'#' :: behind, (List.mem_tails _ _).mpr (List.suffix_append _ _), rfl, name,
      (List.mem_inits _ _).mpr (opensWith_iff_drop.mp opens).2.2.1, opens, spelled, other⟩
  · rintro ⟨behind, tail, first, name, -, opens, spelled, other⟩
    obtain ⟨rest, rfl⟩ := List.head?_eq_some_iff.mp first
    obtain ⟨before, rfl⟩ := (List.mem_tails _ _).mp tail
    exact ⟨name, ⟨before, rest, rfl, opens⟩, spelled, other⟩

instance {text : List Char} : Decidable (ShowsOtherwise path text) :=
  decidable_of_iff _ showsOtherwise_iff.symm

/-- The beginning of a spelling of a tag stands directly in front of its marker. -/
def Fronts (path : String) (text : List Char) : Prop :=
  ∃ begun more, more ≠ [] ∧ (∀ c ∈ begun ++ more, isTagChar c = true) ∧
    TagPath.normalize (String.ofList (begun ++ more)) = path ∧
    ¬ (TagPath.withoutSlash path).toList <+: begun ∧
    '#' :: begun ++ (TagPath.marker path).toList <:+: text

/-- A tag shown after markers are removed was shown before, or it was joined: its beginning stood
directly in front of a marker. -/
theorem shown_or_joined {name' : List Char} (tail : List Char) (ends : EndsTag c)
    (inside : '#' :: (name ++ [c]) <:+: replaceAll ('#' :: name' ++ tail) [] text) :
    (∃ c, EndsTag c ∧ '#' :: (name ++ [c]) <:+: text) ∨
      ∃ begun more, name = begun ++ more ∧ more ≠ [] ∧
        '#' :: begun ++ '#' :: name' <:+: text := by
  rcases infix_replaceAll (by simp) (by simp) inside with ⟨before, after, rfl, -⟩ | joined
  · exact .inl ⟨c, ends, before, after, rfl⟩
  · obtain ⟨before, start, finish, after, cut, filled, filled', rfl, -⟩ := joined
    obtain ⟨d, begun, rfl⟩ := List.exists_cons_of_ne_nil filled
    rw [List.cons_append, List.cons.injEq] at cut
    obtain ⟨rfl, cut⟩ := cut
    rcases List.eq_nil_or_concat finish with rfl | ⟨more, last, rfl⟩
    · exact absurd rfl filled'
    · rw [List.concat_eq_append, ← List.append_assoc] at cut
      obtain ⟨rfl, -⟩ := List.append_inj' cut rfl
      cases more with
      | nil =>
          -- The whole name stood in front of a marker, and so did the tag.
          refine .inl ⟨'#', fun char => absurd char (by decide), before, name' ++ tail ++ after, ?_⟩
          simp
      | cons d more =>
          exact .inr ⟨begun, d :: more, rfl, List.cons_ne_nil _ _, before, tail ++ after, by simp⟩

/-- The tag characters of a spelling make up those of the path. -/
theorem chars_of_normalize {name : List Char} (chars : ∀ c ∈ name, isTagChar c = true)
    (spelled : TagPath.normalize (String.ofList name) = path) :
    ∀ c ∈ path.toList, isTagChar c = true := by
  rintro c member
  rw [← spelled] at member
  rcases TagPath.of_mem_normalize member with rfl | member
  · decide
  · exact chars c (by rwa [String.toList_ofList] at member)

/-- In front of a marker that is nested in another there is the beginning of the marker. -/
theorem fronts_of_isNested (canonical : TagPath.IsCanonical path)
    (chars : ∀ c ∈ path.toList, isTagChar c = true)
    (nested : IsNested (TagPath.marker path).toList text) : Fronts path text := by
  obtain ⟨start, finish, cut, filled, filled', inside⟩ := nested
  obtain ⟨d, begun, rfl⟩ := List.exists_cons_of_ne_nil filled
  rw [Tag.toList_marker, List.cons_append, List.cons.injEq] at cut
  obtain ⟨rfl, cut⟩ := cut
  refine ⟨begun, finish, filled', fun c member => chars c ?_, ?_, fun longer => ?_, inside⟩
  · rw [canonical.toList_eq, cut]
    exact List.mem_cons_of_mem _ member
  · rw [← cut, String.ofList_toList, canonical.normalize_withoutSlash]
  · have some_char := List.length_pos_iff.mpr filled'
    have short := longer.length_le
    rw [cut, List.length_append] at short
    omega

/-- Trimming takes nothing but blanks off the ends of a text, and no tag goes on with a blank. -/
theorem HasTag.of_trim (shown : HasTag name (trim text)) : HasTag name text := by
  obtain ⟨before, behind, whole, valid, after, rfl, ends⟩ := shown
  have front := List.takeWhile_append_dropWhile (p := isBlank) (l := text)
  have back := List.rdropWhile_append_rtakeWhile (p := isBlank) (l := trimStart text)
  change trim text ++ _ = _ at back
  set blanks := (trimStart text).rtakeWhile isBlank with taken
  refine ⟨text.takeWhile isBlank ++ before, name ++ (after ++ blanks), ?_, valid, _, rfl,
    fun c first char => ?_⟩
  · rw [whole] at back
    conv_lhs => rw [← front]
    rw [← trimStart, ← back]
    simp
  · cases after with
    | cons d after => exact ends c first char
    | nil =>
        have blank : isBlank c = true := by
          refine List.mem_rtakeWhile_imp (l := trimStart text) ?_
          rw [← taken]
          exact List.mem_of_mem_head? first
        rw [isTagChar_of_isBlank blank] at char
        cases char

/-- The characters of a marker are not blank. -/
theorem isBlank_of_mem_marker (accepted : TagPath.validate typed = .ok path) :
    ∀ c ∈ (TagPath.marker path).toList, isBlank c = false := by
  obtain ⟨canonical, chars⟩ := TagPath.isCanonical_of_validate accepted
  rw [Tag.toList_marker, List.forall_mem_cons]
  refine ⟨by decide, fun c member => (chars c ?_).1⟩
  exact canonical.toList_eq ▸ List.mem_cons_of_mem _ member

section Stripped

variable {content : String} (accepted : TagPath.validate typed = .ok path)
include accepted

/-- If the marker itself is left after the removal, the beginning of one stood in front of it. -/
theorem fronts_of_marker_left (chars : ∀ c ∈ path.toList, isTagChar c = true)
    (left : (TagPath.marker path).toList <:+: (Tag.stripMarker content path).toList) :
    Fronts path content.toList :=
  fronts_of_isNested (TagPath.isCanonical_of_validate accepted).1 chars
    ((Tag.marker_left_iff accepted content).2.1 left)

/-- A spelling that does not begin with the path is left after the removal because it was there
before, or because its beginning stood in front of a marker. -/
theorem shows_of_spelling_left (shown : HasTag name (Tag.stripMarker content path).toList)
    (spelled : TagPath.normalize (String.ofList name) = path)
    (other : ¬ (TagPath.withoutSlash path).toList <+: name) :
    ShowsOtherwise path content.toList ∨ Fronts path content.toList := by
  have sign := Tag.toList_marker path
  have free : '\n' ∉ (TagPath.marker path).toList := fun member =>
    absurd (isBlank_of_mem_marker accepted _ member) (by decide)
  have free' : '\n' ∉ (TagPath.marker path).toList ++ [' '] := by simpa using free
  rw [Tag.toList_stripMarker] at shown
  obtain ⟨⟨some_name, chars⟩, c, ends, inside⟩ := hasTag_iff.mp shown.of_trim
  have fronts : ∀ begun more : List Char, name = begun ++ more → more ≠ [] →
      '#' :: begun ++ (TagPath.marker path).toList <:+: content.toList →
        Fronts path content.toList := fun begun more cut filled inside =>
    ⟨begun, more, filled, cut ▸ chars, cut ▸ spelled,
      fun begins => other (begins.trans ⟨more, cut.symm⟩), inside⟩
  have free'' : ∀ begun more : List Char, name = begun ++ more →
      '\n' ∉ '#' :: begun ++ (TagPath.marker path).toList := by
    rintro begun more rfl member
    rcases List.mem_append.mp member with member | member
    · rcases List.mem_cons.mp member with same | member
      · cases same
      · exact absurd (chars _ (List.mem_append_left _ member)) (by decide)
    · exact free member
  rw [← replaceAll_concat (by simp [sign]) free, ← List.append_nil (TagPath.marker path).toList,
    sign] at inside
  rcases shown_or_joined [] ends inside with ⟨c, ends, inside⟩ | ⟨begun, more, cut, filled, inside⟩
  · rw [List.append_nil, ← sign, ← replaceAll_concat (by simp [sign]) free', sign] at inside
    rcases shown_or_joined [' '] ends inside with shown | ⟨begun, more, cut, filled, inside⟩
    · exact .inl ⟨name, hasTag_iff.mpr ⟨⟨some_name, chars⟩, shown⟩, spelled, other⟩
    · rw [← sign, infix_concat_iff (free'' begun more cut)] at inside
      exact .inr (fronts begun more cut filled inside)
  · rw [← sign, List.append_nil, infix_concat_iff (free'' begun more cut)] at inside
    rcases front_of_replaceAll (List.cons_ne_nil _ _) (by simp [sign]) inside with
      ⟨start, front, some_char, before⟩ | nested
    · obtain ⟨d, start, rfl⟩ := List.exists_cons_of_ne_nil some_char
      obtain ⟨rfl, rest, rfl⟩ := List.cons_prefix_cons.mp front
      exact .inr (fronts start (rest ++ more) (by simp [cut]) (by simp [filled]) before)
    · exact .inr (fronts_of_isNested (TagPath.isCanonical_of_validate accepted).1
        (chars_of_normalize chars spelled) nested)

/-- **How a tag outlasts the removal of its marker.** The text had another spelling of it, or the
beginning of a spelling directly in front of the marker. -/
theorem shows_of_stripMarker (shown : HasTag name (Tag.stripMarker content path).toList)
    (spelled : TagPath.normalize (String.ofList name) = path) :
    ShowsOtherwise path content.toList ∨ Fronts path content.toList := by
  by_cases longer : (TagPath.withoutSlash path).toList <+: name
  · obtain ⟨before, behind, whole, ⟨-, chars⟩, after, rfl, -⟩ := shown
    refine .inr (fronts_of_marker_left accepted (chars_of_normalize chars spelled) ?_)
    obtain ⟨more, rfl⟩ := longer
    rw [whole, Tag.toList_marker]
    exact ⟨before, more ++ after, by simp⟩
  · exact shows_of_spelling_left accepted shown spelled longer

end Stripped

/-! ### Tags shown after a replacement -/

/-- A path put in place of a marker, with what follows it, begins with a spelling of the tag. -/
def Exposes (path new : String) (text : List Char) : Prop :=
  ∃ before after name, text = before ++ (TagPath.marker path).toList ++ after ∧
    OpensWith name ((TagPath.withoutSlash new).toList ++ after) ∧
    TagPath.normalize (String.ofList name) = path

/-- A tag exposed by a new path is found by a look at every marker. -/
theorem exposes_iff {text : List Char} :
    Exposes path new text ↔ ∃ behind ∈ text.tails, (TagPath.marker path).toList <+: behind ∧
      let replaced := (TagPath.withoutSlash new).toList ++
        behind.drop (TagPath.marker path).toList.length
      ∃ name ∈ replaced.inits, OpensWith name replaced ∧
        TagPath.normalize (String.ofList name) = path := by
  constructor
  · rintro ⟨before, after, name, rfl, opens, spelled⟩
    refine ⟨(TagPath.marker path).toList ++ after, (List.mem_tails _ _).mpr ⟨before, by simp⟩,
      List.prefix_append _ _, name, ?_, ?_, spelled⟩
    · rw [List.drop_left]
      exact (List.mem_inits _ _).mpr (opensWith_iff_drop.mp opens).2.2.1
    · rwa [List.drop_left]
  · rintro ⟨behind, tail, ⟨after, rfl⟩, name, -, opens, spelled⟩
    obtain ⟨before, rfl⟩ := (List.mem_tails _ _).mp tail
    rw [List.drop_left] at opens
    exact ⟨before, after, name, by simp, opens, spelled⟩

instance {text : List Char} : Decidable (Exposes path new text) :=
  decidable_of_iff _ exposes_iff.symm

section Replaced

variable {old new body front : List Char}

/-- A replaced text begins as the text did, up to a number sign. -/
theorem prefix_of_prefix_replaceAll (free : '#' ∉ body)
    (begins : body ++ [c] <+: replaceAll ('#' :: old) ('#' :: new) text) :
    body ++ [c] <+: text := by
  induction text using replaced_induction ('#' :: old) (List.cons_ne_nil _ _)
    generalizing body with
  | nil => exact begins
  | found rest =>
      -- A marker and what replaces it begin with the same sign, and no more than that is told.
      rw [replaceAll_append_self (List.cons_ne_nil _ _)] at begins
      cases body with
      | nil =>
          obtain ⟨rfl, -⟩ := List.cons_prefix_cons.mp begins
          exact ⟨old ++ rest, rfl⟩
      | cons e body =>
          obtain ⟨rfl, -⟩ := List.cons_prefix_cons.mp begins
          exact absurd List.mem_cons_self free
  | other d rest absent ih =>
      rw [replaceAll_cons absent] at begins
      cases body with
      | nil =>
          obtain ⟨rfl, -⟩ := List.cons_prefix_cons.mp begins
          exact ⟨rest, rfl⟩
      | cons e body =>
          obtain ⟨rfl, further⟩ := List.cons_prefix_cons.mp begins
          exact List.cons_prefix_cons.mpr
            ⟨rfl, ih (fun member => free (List.mem_cons_of_mem _ member)) further⟩

/-- The same behind a text that is kept. -/
theorem prefix_of_prefix_append (free : '#' ∉ body)
    (begins : body ++ [c] <+: front ++ replaceAll ('#' :: old) ('#' :: new) text) :
    body ++ [c] <+: front ++ text := by
  induction front generalizing body with
  | nil => exact prefix_of_prefix_replaceAll free begins
  | cons d front ih =>
      cases body with
      | nil =>
          obtain ⟨rfl, -⟩ := List.cons_prefix_cons.mp begins
          exact ⟨front ++ text, rfl⟩
      | cons e body =>
          obtain ⟨rfl, further⟩ := List.cons_prefix_cons.mp begins
          exact List.cons_prefix_cons.mpr
            ⟨rfl, ih (fun member => free (List.mem_cons_of_mem _ member)) further⟩

/-- A number sign does not occur in a text that it is put behind. -/
theorem infix_append_of_not_mem (free : '#' ∉ front) (inside : '#' :: body <:+: front ++ text) :
    '#' :: body <:+: text := by
  induction front with
  | nil => exact inside
  | cons d front ih =>
      rcases List.infix_cons_iff.mp inside with begins | later
      · obtain ⟨rfl, -⟩ := List.cons_prefix_cons.mp begins
        exact absurd List.mem_cons_self free
      · exact ih (fun member => free (List.mem_cons_of_mem _ member)) later

/-- **What stands in a text after a replacement**, from a number sign to the first character that
may be the next one: it stood there before, where no marker began, or it begins with the new path.
-/
theorem infix_of_replaceAll (free : '#' ∉ body) (free' : '#' ∉ new)
    (inside : '#' :: (body ++ [c]) <:+: replaceAll ('#' :: old) ('#' :: new) text) :
    (∃ before after, text = before ++ '#' :: (body ++ [c]) ++ after ∧
        ¬ old <+: body ++ [c] ++ after) ∨
      ∃ before after, text = before ++ '#' :: old ++ after ∧ body ++ [c] <+: new ++ after := by
  induction text using replaced_induction ('#' :: old) (List.cons_ne_nil _ _) with
  | nil => simp [replaceAll, replaceFrom] at inside
  | found rest ih =>
      rw [replaceAll_append_self (List.cons_ne_nil _ _), List.cons_append] at inside
      rcases List.infix_cons_iff.mp inside with begins | later
      · obtain ⟨-, further⟩ := List.cons_prefix_cons.mp begins
        exact .inr ⟨[], rest, rfl, prefix_of_prefix_append free further⟩
      · rcases ih (infix_append_of_not_mem free' later) with ⟨before, after, rfl, absent⟩ |
          ⟨before, after, rfl, begins⟩
        · exact .inl ⟨'#' :: old ++ before, after, by simp, absent⟩
        · exact .inr ⟨'#' :: old ++ before, after, by simp, begins⟩
  | other d rest absent ih =>
      rw [replaceAll_cons absent] at inside
      rcases List.infix_cons_iff.mp inside with begins | later
      · obtain ⟨rfl, further⟩ := List.cons_prefix_cons.mp begins
        obtain ⟨after, rfl⟩ := prefix_of_prefix_replaceAll free further
        exact .inl ⟨[], after, rfl, fun here => absent (List.cons_prefix_cons.mpr ⟨rfl, here⟩)⟩
      · rcases ih later with ⟨before, after, rfl, apart⟩ | ⟨before, after, rfl, begins⟩
        · exact .inl ⟨d :: before, after, by simp, apart⟩
        · exact .inr ⟨d :: before, after, by simp, begins⟩

end Replaced

/-- **How a tag outlasts a replacement of its marker.** The text had another spelling of it, or the
new path begins with a spelling, where a marker was replaced. -/
theorem shows_of_replaceMarker {content : String} (accepted : TagPath.validate typed = .ok path)
    (accepted' : TagPath.validate typed' = .ok new)
    (shown : HasTag name (Tag.replaceMarker content path new).toList)
    (spelled : TagPath.normalize (String.ofList name) = path) :
    ShowsOtherwise path content.toList ∨ Exposes path new content.toList := by
  have free : '\n' ∉ '#' :: (TagPath.withoutSlash path).toList := by
    rw [← Tag.toList_marker]
    exact fun member => absurd (isBlank_of_mem_marker accepted _ member) (by decide)
  rw [Tag.toList_replaceMarker] at shown
  obtain ⟨⟨some_name, chars⟩, c, ends, inside⟩ := hasTag_iff.mp shown
  have unsigned : '#' ∉ name := fun member => absurd (chars _ member) (by decide)
  rw [← replaceAll_concat (List.cons_ne_nil _ _) free] at inside
  rcases infix_of_replaceAll unsigned (Tag.not_mem_withoutSlash accepted') inside with
    ⟨before, after, whole, absent⟩ | ⟨before, after, whole, begins⟩
  · refine .inl ⟨name, hasTag_iff.mpr ⟨⟨some_name, chars⟩, c, ends, before, after, whole.symm⟩,
      spelled, fun longer => absent ?_⟩
    rw [List.append_assoc]
    exact longer.trans (List.prefix_append _ _)
  · obtain ⟨after, rfl, divided⟩ := exists_of_concat_eq (List.cons_ne_nil _ _) free whole
    rw [← List.append_assoc] at begins
    refine .inr ⟨before, after, name, by rw [divided, Tag.toList_marker], ?_, spelled⟩
    exact opensWith_iff.mpr ⟨⟨some_name, chars⟩, c, ends, begins⟩

end TaggedMemos
