import Mathlib.Data.List.Chain
import TaggedMemos.Proofs.Scan

/-!
# The Grammar of a Run

A scan goes through a run from left to right, with two forms that compete for its characters, one
character of memory, and a search ahead that may fail. What it finds can be told without any of
that, place by place: a leaf starts wherever it is written and no embed covers the place. Tags need
not be mentioned in this, since neither form can start inside a tag, and the character remembered is
always the one before.

Places are counted in characters.

## Main results

* `mem_placed_scanFrom`: a scan finds what is written at a place, unless something found before
  covers the place.
* `uncovered_iff`: which leaves can cover a place.
* `scanRun_grammar`: which leaves a run has.
-/

namespace TaggedMemos

open Text

variable {leaf other : Leaf} {width i n start : Nat} {previous : Option Char} {escaped : Bool}
variable {text plain name resource whole : List Char}

/-! ### Leaves and their places -/

/-- Leaves with the places that they start at, from a given place on. -/
def placed (start : Nat) : List Leaf → List (Nat × Leaf)
  | [] => []
  | leaf :: leaves => (start, leaf) :: placed (start + leaf.written.length) leaves

/-- Leaves behind others are placed where those end. -/
theorem placed_append (start : Nat) (leaves more : List Leaf) :
    placed start (leaves ++ more) =
      placed start leaves ++ placed (start + (leaves.flatMap Leaf.written).length) more := by
  induction leaves generalizing start with
  | nil => simp [placed]
  | cons leaf leaves ih => simp [placed, ih, Nat.add_assoc]

/-- No leaf is placed before the start. -/
theorem le_of_mem_placed {leaves : List Leaf} (member : (i, leaf) ∈ placed start leaves) :
    start ≤ i := by
  induction leaves generalizing start with
  | nil => cases member
  | cons first leaves ih =>
      rcases List.mem_cons.mp member with same | later
      · exact (Prod.mk.inj same).1.ge
      · exact (Nat.le_add_right _ _).trans (ih later)

/-- Whether a leaf is text. -/
def Leaf.isText : Leaf → Bool
  | .text _ => true
  | _ => false

/-- Whether a place is not inside a tag or an embed: each that starts before the place ends before
it. -/
def Uncovered (leaves : List (Nat × Leaf)) (i : Nat) : Prop :=
  ∀ j leaf, (j, leaf) ∈ leaves → leaf.isText = false → j < i → j + leaf.written.length ≤ i

/-- Leaves do not cover what stands before them. -/
theorem uncovered_of_le {leaves : List Leaf} (before : i ≤ start) :
    Uncovered (placed start leaves) i := by
  intro j leaf member _ earlier
  exact absurd (earlier.trans_le (before.trans (le_of_mem_placed member))) (lt_irrefl j)

/-- Text gives no leaf but text. -/
theorem not_mem_placed_textLeaf (special : leaf.isText = false) :
    (i, leaf) ∉ placed start (textLeaf plain) := by
  rw [textLeaf]
  split
  · exact List.not_mem_nil
  · simp only [placed, List.mem_singleton, Prod.mk.injEq, not_and]
    rintro - rfl
    cases special

/-- What is found at a place is not text. -/
theorem isText_of_leafAt? (found : leafAt? previous text = some (leaf, width)) :
    leaf.isText = false := by
  rcases tag_or_embed_of_leafAt? found with ⟨raw, rfl⟩ | ⟨resource, rfl⟩
  · rfl
  · rfl

/-- The character before a place of a run. An escaped run stands after a backslash. -/
def charBefore (escaped : Bool) (text : List Char) : Nat → Option Char
  | 0 => if escaped then some '\\' else none
  | i + 1 => text[i]?

/-- A text from a place on begins with the character there. -/
theorem drop_eq_cons {c : Char} {rest : List Char} :
    whole.drop n = c :: rest ↔ whole[n]? = some c ∧ whole.drop (n + 1) = rest := by
  rw [← List.head?_drop, ← List.drop_drop]
  constructor
  · intro here
    rw [here]
    exact ⟨rfl, rfl⟩
  · rintro ⟨first, rfl⟩
    rw [List.drop_one, List.cons_head?_tail first]

/-- Something is taken from a place on exactly if the character there is of the kind. -/
theorem takeWhile_drop_ne_nil {p : Char → Bool} :
    (whole.drop n).takeWhile p ≠ [] ↔ ∃ c, whole[n]? = some c ∧ p c = true := by
  rw [ne_eq, takeWhile_eq_nil, List.head?_drop]
  simp

/-- One character on, the rest of a run is shorter, and that character is the one before. -/
theorem advance {c : Char} {rest : List Char} (rest_of : c :: rest = whole.drop n) :
    rest = whole.drop (n + 1) ∧ some c = charBefore escaped whole (n + 1) := by
  obtain ⟨here, next⟩ := drop_eq_cons.mp rest_of.symm
  exact ⟨next.symm, here.symm⟩

/-! ### What a scan finds -/

/-- What is found at a place takes up as many characters as it is written with. -/
theorem length_written_of_leafAt? (found : leafAt? previous text = some (leaf, width)) :
    leaf.written.length = width := by
  obtain ⟨written, -, fits⟩ := leafAt?_eq_some found
  rw [written, List.length_take_of_le fits]

/-- Where a leaf is found, the scan has that leaf, and what it finds behind it. -/
theorem mem_placed_of_found {c : Char} {rest : List Char} {first : Leaf}
    (found : leafAt? previous (c :: rest) = some (first, width))
    (from_start : start + plain.length = n) (special : leaf.isText = false) :
    (i, leaf) ∈ placed start (scanFrom 0 previous plain (c :: rest)) ↔
      (i = n ∧ leaf = first) ∨
        (i, leaf) ∈ placed (n + width) (scanFrom (width - 1) (some c) [] rest) := by
  have place : start + ((textLeaf plain).flatMap Leaf.written).length = n := by
    rw [flatMap_written_textLeaf, List.length_reverse, from_start]
  rw [scanFrom, found]
  simp only [placed_append, place, placed, length_written_of_leafAt? found, List.mem_append,
    List.mem_cons, Prod.mk.injEq, not_mem_placed_textLeaf special, false_or]

/-- The leaf found first covers its own width, and those behind it what they covered. -/
theorem uncovered_of_found {c : Char} {rest : List Char} {first : Leaf}
    (found : leafAt? previous (c :: rest) = some (first, width))
    (from_start : start + plain.length = n) :
    Uncovered (placed start (scanFrom 0 previous plain (c :: rest))) i ↔
      (n < i → n + width ≤ i) ∧
        Uncovered (placed (n + width) (scanFrom (width - 1) (some c) [] rest)) i := by
  have size := length_written_of_leafAt? found
  have split := fun {j : Nat} {leaf : Leaf} (special : leaf.isText = false) =>
    mem_placed_of_found (i := j) found from_start special
  constructor
  · intro clear
    have special := isText_of_leafAt? found
    refine ⟨fun onward => ?_, fun j leaf later special before => ?_⟩
    · exact size ▸ clear n first ((split special).mpr (.inl ⟨rfl, rfl⟩)) special onward
    · exact clear j leaf ((split special).mpr (.inr later)) special before
  · rintro ⟨past, clear⟩ j leaf member special before
    rcases (split special).mp member with ⟨rfl, rfl⟩ | later
    · exact size ▸ past before
    · exact clear j leaf later special before

/-- **A scan finds what is written at a place**, unless something that it found before covers the
place. The scan has come to the place `n` of a run, and what was found last takes up `skip` more
characters. -/
theorem mem_placed_scanFrom (skip : Nat) (previous : Option Char) (plain text : List Char)
    (rest_of : text = whole.drop n) (remembered : previous = charBefore escaped whole n)
    (from_start : start + plain.length = n + skip) (special : leaf.isText = false) :
    (i, leaf) ∈ placed start (scanFrom skip previous plain text) ↔
      n + skip ≤ i ∧
      (∃ width, leafAt? (charBefore escaped whole i) (whole.drop i) = some (leaf, width)) ∧
      Uncovered (placed start (scanFrom skip previous plain text)) i := by
  induction skip, previous, plain, text using scanFrom.induct generalizing n start with
  | case1 skip previous plain =>
      have past : whole.length ≤ n := List.drop_eq_nil_iff.mp rest_of.symm
      simp only [scanFrom, not_mem_placed_textLeaf special, false_iff]
      rintro ⟨late, ⟨width, found⟩, -⟩
      rw [List.drop_eq_nil_of_le (past.trans ((Nat.le_add_right n skip).trans late))] at found
      cases found
  | case2 skip previous plain c rest ih =>
      obtain ⟨next, here⟩ := advance rest_of
      rw [scanFrom, ih next here (by omega), Nat.add_right_comm, Nat.add_assoc]
  | case3 previous plain c rest first width found ih =>
      obtain ⟨next, here⟩ := advance rest_of
      have positive := (leafAt?_eq_some found).2.1
      have found_here : leafAt? (charBefore escaped whole n) (whole.drop n) =
          some (first, width) := by
        rw [← remembered, ← rest_of, found]
      have behind : n + 1 + (width - 1) = n + width := by omega
      rw [Nat.add_zero] at from_start ⊢
      have later : (i, leaf) ∈ placed (n + width) (scanFrom (width - 1) (some c) [] rest) ↔ _ :=
        ih next here behind.symm
      rw [mem_placed_of_found found from_start special, uncovered_of_found found from_start, later,
        behind]
      constructor
      · rintro (⟨rfl, rfl⟩ | ⟨late, written, clear⟩)
        · exact ⟨le_rfl, ⟨width, found_here⟩, fun onward => absurd onward (lt_irrefl _),
            uncovered_of_le (Nat.le_add_right _ _)⟩
        · exact ⟨by omega, written, fun _ => late, clear⟩
      · rintro ⟨from_here, ⟨width', found'⟩, past, clear⟩
        rcases Nat.eq_or_lt_of_le from_here with rfl | onward
        · have same := Option.some.inj (found_here.symm.trans found')
          exact .inl ⟨rfl, (Prod.mk.inj same).1.symm⟩
        · exact .inr ⟨past onward, ⟨width', found'⟩, clear⟩
  | case4 previous plain c rest missing ih =>
      obtain ⟨next, here⟩ := advance rest_of
      rw [scanFrom, missing]
      simp only
      rw [ih next here (by simp; omega)]
      refine and_congr_left fun found => ⟨fun late => by omega, fun late => ?_⟩
      rcases Nat.eq_or_lt_of_le late with rfl | later
      · obtain ⟨⟨width, found⟩, -⟩ := found
        rw [Nat.add_zero, ← remembered, ← rest_of, missing] at found
        cases found
      · omega

/-! ### What is written at a place -/

/-- A tag is found at a place exactly if one is read there. -/
theorem leafAt?_eq_tag {raw : String} :
    (∃ width, leafAt? previous text = some (.tag raw, width)) ↔
      tagAt? previous text = some raw.toList := by
  rw [leafAt?]
  constructor
  · rintro ⟨width, found⟩
    split at found
    · next name tag =>
        obtain ⟨same, -⟩ := Prod.mk.inj (Option.some.inj found)
        rw [tag, ← Leaf.tag.inj same, String.toList_ofList]
    · obtain ⟨resource, -, same⟩ := Option.map_eq_some_iff.mp found
      cases (Prod.mk.inj same).1
  · intro tag
    rw [tag]
    exact ⟨raw.toList.length + 1, by simp⟩

/-- An embed is found wherever it is written, since no tag begins with its mark. -/
theorem leafAt?_eq_embed {resource : String} :
    (∃ width, leafAt? previous text = some (.embed resource, width)) ↔
      embedAt? text = some resource.toList := by
  rw [leafAt?]
  constructor
  · rintro ⟨width, found⟩
    split at found
    · cases (Prod.mk.inj (Option.some.inj found)).1
    · obtain ⟨resource', embed, same⟩ := Option.map_eq_some_iff.mp found
      rw [embed, ← Leaf.embed.inj (Prod.mk.inj same).1, String.toList_ofList]
  · intro embed
    obtain ⟨inner, rfl, -⟩ := embedAt?_eq_some_iff.mp embed
    have noTag : tagAt? previous (['!', '[', '['] ++ inner) = none := rfl
    rw [noTag, embed]
    exact ⟨resource.toList.length + 5, by simp⟩

/-! ### What a run consists of -/

/-- A place after the beginning of an embed and before its end. -/
def InEmbed (leaves : List Leaf) (i : Nat) : Prop :=
  ∃ j resource, (j, .embed resource) ∈ placed 0 leaves ∧ j < i ∧
    i < j + (Leaf.embed resource).written.length

/-- Where a `#` opens a tag, as far as the character before it is concerned: at the beginning of a
run that is not escaped, and after a blank character, an opening bracket or a quote. -/
def OpensAt (escaped : Bool) (text : List Char) (i : Nat) : Prop :=
  (i = 0 ∧ escaped = false) ∨
    ∃ c, 0 < i ∧ text[i - 1]? = some c ∧ (isBlank c = true ∨ c ∈ ['(', '[', '{', '"', '\''])

/-- The character in front of a place decides whether a tag may open there. -/
theorem opensTag_charBefore (inside : i < text.length) :
    opensTag (charBefore escaped text i) = true ↔ OpensAt escaped text i := by
  cases i with
  | zero =>
      cases escaped with
      | true => simp [charBefore, opensTag, OpensAt, isBlank]
      | false => simp [charBefore, opensTag, OpensAt]
  | succ i =>
      have before : text[i]? = some text[i] := List.getElem?_eq_getElem _
      simp [charBefore, opensTag, OpensAt, before, or_assoc]

/-- A run has the leaves that are written at its places, where nothing found before covers them. -/
theorem mem_placed_scanRun (special : leaf.isText = false) :
    (i, leaf) ∈ placed 0 (scanRun escaped text) ↔
      (∃ width, leafAt? (charBefore escaped text i) (text.drop i) = some (leaf, width)) ∧
      Uncovered (placed 0 (scanRun escaped text)) i := by
  have found := mem_placed_scanFrom (i := i) 0 (charBefore escaped text 0) [] text
    List.drop_zero.symm rfl rfl special
  exact found.trans (and_iff_right (Nat.zero_le _))

/-- Behind the number sign of a tag are tag characters, up to its end. -/
theorem isTagChar_of_tagAt? {j : Nat} {c : Char} (found : tagAt? previous (text.drop j) = some name)
    (before : j < i) (within : i ≤ j + name.length) (here : text[i]? = some c) :
    isTagChar c = true := by
  obtain ⟨rest, behind, -, -, maximal⟩ := tagAt?_eq_some_iff.mp found
  obtain ⟨k, rfl⟩ := Nat.exists_eq_add_of_lt before
  obtain ⟨-, rfl⟩ := drop_eq_cons.mp behind
  have inside : k < name.length := by omega
  have goesOn : name <+: text.drop (j + 1) := maximal ▸ List.takeWhile_prefix _
  have there := List.prefix_iff_getElem?.mp goesOn k inside
  rw [List.getElem?_drop, Nat.add_right_comm, here, Option.some.injEq] at there
  have member : name[k] ∈ name := List.getElem_mem inside
  rw [← there, maximal] at member
  exact List.mem_takeWhile_imp member

/-- Tags cover tag characters alone, so a place with another character is covered by embeds only. -/
theorem uncovered_iff {c : Char} (here : text[i]? = some c) (other : isTagChar c = false) :
    Uncovered (placed 0 (scanRun escaped text)) i ↔ ¬ InEmbed (scanRun escaped text) i := by
  constructor
  · rintro clear ⟨j, resource, member, before, within⟩
    exact absurd (clear j _ member rfl before) (not_le.mpr within)
  · intro outside j leaf member special before
    by_contra covers
    obtain ⟨⟨width, found⟩, -⟩ := (mem_placed_scanRun special).mp member
    rcases tag_or_embed_of_leafAt? found with ⟨raw, rfl⟩ | ⟨resource, rfl⟩
    · have size : (Leaf.tag raw).written.length = raw.toList.length + 1 := by
        simp [Leaf.written_tag]
      have tag := isTagChar_of_tagAt? (leafAt?_eq_tag.mp ⟨width, found⟩) before (by omega) here
      cases other.symm.trans tag
    · exact outside ⟨j, resource, member, before, not_le.mp covers⟩

/-! ### The shape of a run -/

/-- Every leaf of a scan is text, a tag or an embed, and not empty. -/
theorem filled_of_mem_scanFrom (skip : Nat) (previous : Option Char) (plain text : List Char) :
    ∀ leaf ∈ scanFrom skip previous plain text, ∃ part, part ≠ "" ∧
      (leaf = .text part ∨ leaf = .tag part ∨ leaf = .embed part) := by
  have collected : ∀ plain, ∀ leaf ∈ textLeaf plain, ∃ part, part ≠ "" ∧
      (leaf = .text part ∨ leaf = .tag part ∨ leaf = .embed part) := by
    intro plain leaf member
    rw [textLeaf] at member
    split at member
    · cases member
    · next filled => exact ⟨_, by simpa using filled, .inl (List.mem_singleton.mp member)⟩
  induction skip, previous, plain, text using scanFrom.induct with
  | case1 skip previous plain => simpa [scanFrom] using collected plain
  | case2 skip previous plain c rest ih => simpa [scanFrom] using ih
  | case3 previous plain c rest first width found ih =>
      intro leaf member
      rw [scanFrom, found, List.mem_append, List.mem_cons] at member
      rcases member with member | rfl | member
      · exact collected plain leaf member
      · rcases tag_or_embed_of_leafAt? found with ⟨raw, rfl⟩ | ⟨resource, rfl⟩
        · obtain ⟨-, -, -, filled, -⟩ := tagAt?_eq_some_iff.mp (leafAt?_eq_tag.mp ⟨width, found⟩)
          exact ⟨raw, fun empty => filled (by simp [empty]), .inr (.inl rfl)⟩
        · obtain ⟨-, -, -, filled, -⟩ :=
            embedAt?_eq_some_iff.mp (leafAt?_eq_embed.mp ⟨width, found⟩)
          exact ⟨resource, fun empty => filled (by simp [empty]), .inr (.inr rfl)⟩
      · exact ih leaf member
  | case4 previous plain c rest missing ih =>
      rw [scanFrom, missing]
      exact ih

/-- No two leaves of text follow each other. -/
theorem isChain_scanFrom (skip : Nat) (previous : Option Char) (plain text : List Char) :
    (scanFrom skip previous plain text).IsChain
      fun leaf next => ¬ (leaf.isText = true ∧ next.isText = true) := by
  have single : ∀ plain, (textLeaf plain).IsChain
      fun leaf next => ¬ (leaf.isText = true ∧ next.isText = true) := by
    intro plain
    rw [textLeaf]
    split
    · exact .nil
    · exact .singleton _
  induction skip, previous, plain, text using scanFrom.induct with
  | case1 skip previous plain => simpa [scanFrom] using single plain
  | case2 skip previous plain c rest ih => simpa [scanFrom] using ih
  | case3 previous plain c rest first width found ih =>
      have special := isText_of_leafAt? found
      rw [scanFrom, found]
      simp only
      rw [List.isChain_append, List.isChain_cons]
      refine ⟨single plain, ⟨fun next _ both => ?_, ih⟩, fun last _ next member both => ?_⟩
      · cases special.symm.trans both.1
      · obtain rfl : first = next := by simpa using member
        cases special.symm.trans both.2
  | case4 previous plain c rest missing ih =>
      rw [scanFrom, missing]
      exact ih

/-! ### The grammar -/

/-- **Which leaves a run has.** Written in order they are the run; none is empty, and no two of text
follow each other. A tag starts at a place exactly if there is a `#` with a tag character after it,
no embed covers the place, and the character before opens a tag; it goes on for as long as there are
tag characters. An embed starts at a place exactly if `![[` is there, no embed covers the place, and
there is a first `]]` behind it, before which stands a text on one line that is not empty. -/
theorem scanRun_grammar (escaped : Bool) (text : List Char) :
    (scanRun escaped text).flatMap Leaf.written = text ∧
    (∀ leaf ∈ scanRun escaped text, ∃ part, part ≠ "" ∧
      (leaf = .text part ∨ leaf = .tag part ∨ leaf = .embed part)) ∧
    ((scanRun escaped text).IsChain
      fun leaf next => ¬ (leaf.isText = true ∧ next.isText = true)) ∧
    (∀ i raw, (i, .tag raw) ∈ placed 0 (scanRun escaped text) ↔
      text[i]? = some '#' ∧ (∃ c, text[i + 1]? = some c ∧ isTagChar c = true) ∧
      ¬ InEmbed (scanRun escaped text) i ∧ OpensAt escaped text i ∧
      raw.toList = (text.drop (i + 1)).takeWhile isTagChar) ∧
    (∀ i resource, (i, .embed resource) ∈ placed 0 (scanRun escaped text) ↔
      ¬ InEmbed (scanRun escaped text) i ∧ ∃ inner, text.drop i = ['!', '[', '['] ++ inner ∧
        IsBefore [']', ']'] resource.toList inner ∧ resource ≠ "" ∧ '\n' ∉ resource.toList) := by
  refine ⟨flatMap_written_scanRun escaped text, filled_of_mem_scanFrom 0 _ [] text,
    isChain_scanFrom 0 _ [] text, fun i raw => ?_, fun i resource => ?_⟩
  · rw [mem_placed_scanRun rfl, leafAt?_eq_tag, tagAt?_eq_some_iff]
    constructor
    · rintro ⟨⟨rest, behind, opens, filled, maximal⟩, clear⟩
      obtain ⟨here, rfl⟩ := drop_eq_cons.mp behind
      obtain ⟨inside, -⟩ := List.getElem?_eq_some_iff.mp here
      exact ⟨here, takeWhile_drop_ne_nil.mp (maximal ▸ filled), (uncovered_iff here rfl).mp clear,
        (opensTag_charBefore inside).mp opens, maximal⟩
    · rintro ⟨here, next, outside, opens, maximal⟩
      obtain ⟨inside, -⟩ := List.getElem?_eq_some_iff.mp here
      exact ⟨⟨_, drop_eq_cons.mpr ⟨here, rfl⟩, (opensTag_charBefore inside).mpr opens,
        maximal ▸ takeWhile_drop_ne_nil.mpr next, maximal⟩, (uncovered_iff here rfl).mpr outside⟩
  · rw [mem_placed_scanRun rfl, leafAt?_eq_embed, embedAt?_eq_some_iff]
    constructor
    · rintro ⟨⟨inner, behind, first, filled, oneLine⟩, clear⟩
      have here := (drop_eq_cons.mp behind).1
      refine ⟨(uncovered_iff here rfl).mp clear, inner, behind, first, ?_, oneLine⟩
      rintro rfl
      exact filled rfl
    · rintro ⟨outside, inner, behind, first, filled, oneLine⟩
      have here := (drop_eq_cons.mp behind).1
      refine ⟨⟨inner, behind, first, ?_, oneLine⟩, (uncovered_iff here rfl).mpr outside⟩
      exact fun empty => filled (String.toList_inj.mp (by simpa using empty))

-- An embed hides the tag in it and closes with a character that opens none.
example : placed 0 (scanRun false "#a![[#b c]]#d (#e".toList) =
    [(0, .tag "a"), (2, .embed "#b c"), (11, .text "#d ("), (15, .tag "e")] := by
  decide +kernel

end TaggedMemos
