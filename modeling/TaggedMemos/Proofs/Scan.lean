import Mathlib.Data.List.Basic
import Mathlib.Data.List.TakeWhile
import TaggedMemos.Forest.Scan
import TaggedMemos.Proofs.Leaves
import TaggedMemos.Proofs.Substring

/-!
# The Leaves of a Run

A scan cuts a run and changes nothing in it: its leaves, written in order, are the run. Whatever
is not text was found by `leafAt?` at some place of the run, which is how anything about the tags
of a run is proved.

## Main results

* `opensTag_of_isTagChar`: no character both belongs to a tag and opens one.
* `tagAt?_eq_some_iff`, `embedAt?_eq_some_iff`: the tag or the embed that a text begins with.
* `scan_induction`: what a scan does with a run, step by step.
* `flatMap_written_scanRun`: a run is lost in no part.
* `mem_scanRun`: the leaves of a run are text, or found at some place of it.
* `tag_of_mem_scanRun`: a tag of a run is a `#` in it with all tag characters that follow.
-/

namespace TaggedMemos

open Text

variable {leaf : Leaf} {width skip : Nat} {previous : Option Char} {c : Char}
variable {text plain name resource rest : List Char}

/-! ### Characters -/

/-- Blank characters belong to no tag. -/
theorem isTagChar_of_isBlank (blank : isBlank c = true) : isTagChar c = false := by
  have listed : c.toNat ∈ List.range' 9 5 ++ List.range' 0x2000 11 ++
      [0x20, 0x85, 0xA0, 0x1680, 0x2028, 0x2029, 0x202F, 0x205F, 0x3000] := by
    simp only [isBlank, Bool.or_eq_true, Bool.and_eq_true, decide_eq_true_eq, beq_iff_eq] at blank
    simp only [List.mem_append, List.mem_range'_1, List.mem_cons, List.not_mem_nil, or_false]
    omega
  have none : ∀ n ∈ List.range' 9 5 ++ List.range' 0x2000 11 ++
      [0x20, 0x85, 0xA0, 0x1680, 0x2028, 0x2029, 0x202F, 0x205F, 0x3000],
      isTagChar (Char.ofNat n) = false := by decide +kernel
  simpa using none _ listed

/-- The characters that open a tag belong to none. -/
theorem opensTag_of_isTagChar (char : isTagChar c = true) : opensTag (some c) = false := by
  rw [Bool.eq_false_iff]
  intro opens
  simp only [opensTag, Bool.or_eq_true, beq_iff_eq] at opens
  obtain ((((blank | rfl) | rfl) | rfl) | rfl) | rfl := opens
  · rw [isTagChar_of_isBlank blank] at char
    cases char
  all_goals exact absurd char (by decide)

/-- Nothing is taken exactly if the first character is none of the kind. -/
theorem takeWhile_eq_nil {p : Char → Bool} :
    text.takeWhile p = [] ↔ ∀ c ∈ text.head?, p c = false := by
  cases text with
  | nil => simp
  | cons c text => cases fits : p c <;> simp [fits]

/-! ### Tags and embeds at one place -/

/-- What a tag may consist of after its number sign. -/
def IsName (name : List Char) : Prop :=
  name ≠ [] ∧ ∀ c ∈ name, isTagChar c = true

/-- A tag is a number sign where one may open, and all tag characters after it, one at least. -/
theorem tagAt?_eq_some_iff :
    tagAt? previous text = some name ↔ ∃ rest, text = '#' :: rest ∧ opensTag previous = true ∧
      name ≠ [] ∧ name = rest.takeWhile isTagChar := by
  constructor
  · intro found
    unfold tagAt? at found
    split at found
    · next rest =>
        simp only at found
        split at found
        · next opens =>
            obtain rfl := Option.some.inj found
            rw [Bool.and_eq_true, Bool.not_eq_true', List.isEmpty_eq_false_iff] at opens
            exact ⟨rest, rfl, opens.1, opens.2, rfl⟩
        · cases found
    · cases found
  · rintro ⟨rest, rfl, opens, filled, rfl⟩
    simp [tagAt?, opens, filled]

/-- An embed is `![[`, a resource on one line that is not empty, and the first `]]` after it. -/
theorem embedAt?_eq_some_iff :
    embedAt? text = some resource ↔ ∃ inner, text = ['!', '[', '['] ++ inner ∧
      IsBefore [']', ']'] resource inner ∧ resource ≠ [] ∧ '\n' ∉ resource := by
  simp only [embedAt?, bind, Option.bind_eq_some_iff, stripPrefix?_eq_some, before?_eq_some_iff]
  refine exists_congr fun inner => and_congr_right fun _ => ?_
  constructor
  · rintro ⟨resource', first, accepted⟩
    split at accepted
    · cases accepted
    · next other =>
        obtain rfl := Option.some.inj accepted
        rw [Bool.or_eq_true, not_or, List.isEmpty_iff, List.contains_iff_mem] at other
        exact ⟨first, other⟩
  · rintro ⟨first, filled, oneLine⟩
    exact ⟨resource, first, by simp [filled, oneLine]⟩

/-- The tag a text begins with is not empty and consists of tag characters. -/
theorem tagAt?_eq_some (found : tagAt? previous text = some name) :
    '#' :: name <+: text ∧ name ≠ [] ∧ ∀ c ∈ name, isTagChar c = true := by
  obtain ⟨rest, rfl, -, filled, rfl⟩ := tagAt?_eq_some_iff.mp found
  exact ⟨List.cons_prefix_cons.mpr ⟨rfl, List.takeWhile_prefix _⟩, filled,
    fun c member => List.mem_takeWhile_imp member⟩

/-- The embed a text begins with is written in it as it is built. -/
theorem embedAt?_eq_some (found : embedAt? text = some resource) :
    ['!', '[', '['] ++ resource ++ [']', ']'] <+: text := by
  obtain ⟨inner, rfl, ⟨closed, -⟩, -⟩ := embedAt?_eq_some_iff.mp found
  rw [List.append_assoc]
  exact (List.prefix_append_right_inj _).mpr closed

/-- What a text begins with takes up as many characters as it is written with, one at least. -/
theorem leafAt?_eq_some (found : leafAt? previous text = some (leaf, width)) :
    leaf.written = text.take width ∧ 0 < width ∧ width ≤ text.length := by
  have prefixed : leaf.written <+: text ∧ leaf.written.length = width ∧ 0 < width := by
    rw [leafAt?] at found
    split at found
    · next name tag =>
        obtain ⟨rfl, rfl⟩ := Prod.mk.inj (Option.some.inj found)
        rw [Leaf.written_tag, String.toList_ofList]
        exact ⟨(tagAt?_eq_some tag).1, by simp, by simp⟩
    · obtain ⟨resource, embed, same⟩ := Option.map_eq_some_iff.mp found
      obtain ⟨rfl, rfl⟩ := Prod.mk.inj same
      rw [Leaf.written_embed, String.toList_ofList]
      exact ⟨embedAt?_eq_some embed, by simp, by simp⟩
  obtain ⟨prefixed, rfl, positive⟩ := prefixed
  exact ⟨(List.prefix_iff_eq_take.mp prefixed), positive, prefixed.length_le⟩

/-! ### Scanning step by step -/

/-- A scan goes past what belongs to the leaf found last. -/
theorem scanFrom_append (front : List Char) (previous : Option Char) :
    scanFrom front.length previous plain (front ++ rest) =
      scanFrom 0 (front.getLast?.or previous) plain rest := by
  induction front generalizing previous with
  | nil => rfl
  | cons c front ih =>
      rw [List.length_cons, List.cons_append, scanFrom, ih, List.getLast?_cons]
      cases front.getLast? <;> rfl

/-- Where a leaf is found, a scan has that leaf and goes on behind it. -/
theorem scanFrom_found
    (found : leafAt? previous (leaf.written ++ rest) = some (leaf, leaf.written.length)) :
    scanFrom 0 previous plain (leaf.written ++ rest) =
      textLeaf plain ++ leaf :: scanFrom 0 leaf.written.getLast? [] rest := by
  cases written : leaf.written with
  | nil =>
      rw [written] at found
      exact absurd (leafAt?_eq_some found).2.1 (lt_irrefl _)
  | cons c front =>
      rw [written, List.cons_append] at found
      rw [List.cons_append, scanFrom, found]
      simp only [List.length_cons, Nat.add_sub_cancel, scanFrom_append, List.getLast?_cons]
      cases front.getLast? <;> rfl

/-- Where no leaf is found, a scan has another character of text. -/
theorem scanFrom_other (missing : leafAt? previous (c :: rest) = none) :
    scanFrom 0 previous plain (c :: rest) = scanFrom 0 (some c) (c :: plain) rest := by
  rw [scanFrom, missing]

/-- A run ends, or begins with a leaf, or with a character at which there is none. -/
theorem scan_cases (previous : Option Char) (text : List Char) :
    text = [] ∨
      (∃ leaf rest, text = leaf.written ++ rest ∧
        leafAt? previous (leaf.written ++ rest) = some (leaf, leaf.written.length)) ∨
      ∃ c rest, text = c :: rest ∧ leafAt? previous (c :: rest) = none := by
  cases text with
  | nil => exact .inl rfl
  | cons c text =>
      cases here : leafAt? previous (c :: text) with
      | none => exact .inr (.inr ⟨c, text, rfl, here⟩)
      | some result =>
          obtain ⟨leaf, width⟩ := result
          obtain ⟨written, positive, fits⟩ := leafAt?_eq_some here
          have same : leaf.written.length = width := by
            rw [written, List.length_take_of_le fits]
          have whole : leaf.written ++ (c :: text).drop width = c :: text := by
            rw [written, List.take_append_drop]
          exact .inr (.inl ⟨leaf, (c :: text).drop width, whole.symm, by rw [whole, same, here]⟩)

/-- What is found takes up some characters. -/
theorem length_written_pos
    (found : leafAt? previous (leaf.written ++ rest) = some (leaf, leaf.written.length)) :
    0 < leaf.written.length :=
  (leafAt?_eq_some found).2.1

/-- **What a scan does with a run**: it ends, or goes on behind a leaf, or behind a character at
which there is none. -/
theorem scan_induction {P : Option Char → List Char → Prop} (nil : ∀ previous, P previous [])
    (found : ∀ previous leaf rest,
      leafAt? previous (leaf.written ++ rest) = some (leaf, leaf.written.length) →
      P leaf.written.getLast? rest → P previous (leaf.written ++ rest))
    (other : ∀ previous c rest, leafAt? previous (c :: rest) = none → P (some c) rest →
      P previous (c :: rest))
    (previous : Option Char) (text : List Char) : P previous text := by
  induction size : text.length using Nat.strongRecOn generalizing previous text with
  | ind n ih =>
      rcases scan_cases previous text with rfl | ⟨leaf, rest, rfl, here⟩ | ⟨c, rest, rfl, missing⟩
      · exact nil previous
      · have positive := length_written_pos here
        rw [List.length_append] at size
        exact found previous leaf rest here (ih _ (by omega) _ rest rfl)
      · exact other previous c rest missing (ih _ (by simp [← size]) _ rest rfl)

/-! ### What a scan gives -/

/-- The text before a leaf is written as it was collected. -/
theorem flatMap_written_textLeaf (plain : List Char) :
    (textLeaf plain).flatMap Leaf.written = plain.reverse := by
  cases plain with
  | nil => rfl
  | cons c plain => simp [textLeaf]

/-- A scan writes the text collected before it and then the rest, up to the characters that belong
to the leaf found last. -/
theorem flatMap_written_scanFrom (skip : Nat) (previous : Option Char) (plain text : List Char) :
    (scanFrom skip previous plain text).flatMap Leaf.written = plain.reverse ++ text.drop skip := by
  induction skip, previous, plain, text using scanFrom.induct with
  | case1 skip previous plain => simp [scanFrom, flatMap_written_textLeaf]
  | case2 skip previous plain c rest ih => simpa [scanFrom] using ih
  | case3 previous plain c rest leaf width found ih =>
      obtain ⟨written, positive, -⟩ := leafAt?_eq_some found
      obtain ⟨width, rfl⟩ := Nat.exists_eq_succ_of_ne_zero (Nat.ne_of_gt positive)
      rw [scanFrom, found]
      simp only [List.flatMap_append, List.flatMap_cons, flatMap_written_textLeaf, ih, written,
        List.reverse_nil, List.nil_append, List.drop_zero]
      simp
  | case4 previous plain c rest found ih =>
      rw [scanFrom, found]
      simpa using ih

/-- **A scan loses nothing.** The leaves of a run written in order are the run. -/
theorem flatMap_written_scanRun (escaped : Bool) (text : List Char) :
    (scanRun escaped text).flatMap Leaf.written = text := by
  rw [scanRun, flatMap_written_scanFrom]
  simp

/-- A scan gives text, and what is found at some place. -/
theorem mem_scanFrom (member : leaf ∈ scanFrom skip previous plain text) :
    (∃ t, leaf = .text t) ∨
      ∃ previous' rest width, rest <:+ text ∧ leafAt? previous' rest = some (leaf, width) := by
  have collected : ∀ plain, leaf ∈ textLeaf plain → ∃ t, leaf = .text t := by
    intro plain member
    rw [textLeaf] at member
    split at member
    · cases member
    · exact ⟨_, List.mem_singleton.mp member⟩
  have further : ∀ {rest : List Char} (c : Char),
      ((∃ t, leaf = .text t) ∨
        ∃ previous' tail width, tail <:+ rest ∧ leafAt? previous' tail = some (leaf, width)) →
      (∃ t, leaf = .text t) ∨
        ∃ previous' tail width, tail <:+ c :: rest ∧
          leafAt? previous' tail = some (leaf, width) := by
    intro rest c
    refine Or.imp_right ?_
    rintro ⟨previous', tail, width, suffix, found⟩
    exact ⟨previous', tail, width, suffix.trans (List.suffix_cons c rest), found⟩
  induction skip, previous, plain, text using scanFrom.induct with
  | case1 skip previous plain => exact .inl (collected plain (by simpa [scanFrom] using member))
  | case2 skip previous plain c rest ih => exact further c (ih (by simpa [scanFrom] using member))
  | case3 previous plain c rest leaf' width found ih =>
      rw [scanFrom, found, List.mem_append, List.mem_cons] at member
      rcases member with member | rfl | member
      · exact .inl (collected plain member)
      · exact .inr ⟨previous, c :: rest, width, List.suffix_refl _, found⟩
      · exact further c (ih member)
  | case4 previous plain c rest found ih =>
      rw [scanFrom, found] at member
      exact further c (ih member)

/-- The leaves of a run are text, or found at some place of it. -/
theorem mem_scanRun {escaped : Bool} (member : leaf ∈ scanRun escaped text) :
    (∃ t, leaf = .text t) ∨
      ∃ previous rest width, rest <:+ text ∧ leafAt? previous rest = some (leaf, width) :=
  mem_scanFrom member

/-- What is found at a place is a tag or an embed. -/
theorem tag_or_embed_of_leafAt? (found : leafAt? previous text = some (leaf, width)) :
    (∃ raw, leaf = .tag raw) ∨ ∃ resource, leaf = .embed resource := by
  rw [leafAt?] at found
  split at found
  · obtain ⟨rfl, -⟩ := Prod.mk.inj (Option.some.inj found)
    exact .inl ⟨_, rfl⟩
  · obtain ⟨resource, -, same⟩ := Option.map_eq_some_iff.mp found
    obtain ⟨rfl, -⟩ := Prod.mk.inj same
    exact .inr ⟨_, rfl⟩

/-- What a scan finds is written the same way, however leaves without a text are. -/
theorem writtenBy_of_mem_scanRun {escaped : Bool} (member : leaf ∈ scanRun escaped text)
    (build : Leaf → List Char) : leaf.writtenBy build = leaf.written := by
  rcases mem_scanRun member with ⟨t, rfl⟩ | ⟨_, _, _, -, found⟩
  · rfl
  · rcases tag_or_embed_of_leafAt? found with ⟨raw, rfl⟩ | ⟨resource, rfl⟩ <;> rfl

/-- So a scan loses nothing for any writer. -/
theorem flatMap_writtenBy_scanRun (build : Leaf → List Char) (escaped : Bool) (text : List Char) :
    (scanRun escaped text).flatMap (Leaf.writtenBy build) = text := by
  rw [List.flatMap_congr fun leaf member => writtenBy_of_mem_scanRun member build]
  exact flatMap_written_scanRun escaped text

/-- **A tag of a run** stands in it behind a `#`, and goes up to a character that is no tag
character, or to the end of the run. -/
theorem tag_of_mem_scanRun {escaped : Bool} {raw : String}
    (member : .tag raw ∈ scanRun escaped text) :
    ∃ before after, text = before ++ '#' :: (raw.toList ++ after) ∧ IsName raw.toList ∧
      ∀ c ∈ after.head?, isTagChar c = false := by
  rcases mem_scanRun member with ⟨t, same⟩ | ⟨previous, rest, width, ⟨before, rfl⟩, found⟩
  · cases same
  · rw [leafAt?] at found
    split at found
    · next name tag =>
        obtain ⟨same, -⟩ := Prod.mk.inj (Option.some.inj found)
        obtain rfl := Leaf.tag.inj same
        obtain ⟨-, valid⟩ := tagAt?_eq_some tag
        obtain ⟨behind, rfl, -, -, maximal⟩ := tagAt?_eq_some_iff.mp tag
        obtain ⟨after, rfl⟩ : name <+: behind := maximal ▸ List.takeWhile_prefix _
        rw [List.takeWhile_append_of_pos valid.2] at maximal
        rw [String.toList_ofList]
        exact ⟨before, after, rfl, valid,
          takeWhile_eq_nil.mp (List.append_right_eq_self.mp maximal.symm)⟩
    · obtain ⟨resource, -, same⟩ := Option.map_eq_some_iff.mp found
      cases (Prod.mk.inj same).1

end TaggedMemos
