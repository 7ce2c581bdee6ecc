import TaggedMemos.Proofs.Contents
import TaggedMemos.Proofs.EditedText
import TaggedMemos.Proofs.Rescanning

/-!
# Scanning What a Removal Leaves

When the tags on a path are taken out of a run, what stood behind such a tag moves up to what stood
in front of it, and is scanned in another company. There a tag may begin: the character in front of
the tag taken out is one that opens tags, so a `#` directly behind it, which was none as long as the
tag stood there, opens a tag now. In `x #a#b` the removal of `#a` leaves `x #b`. Nothing else can
come of it, but for one case. Embeds are no more and no fewer, because a tag can have an opening
bracket in front of it but no closing one, so no `]]` is joined; a `![[` can be joined only where a
tag stands between `![` and `[`, and `Unbracketed` excludes that.

## Main results

* `Thinned.before?_eq_some`: a search finds the corresponding place in what is left.
* `scanFrom_thinned`: the tags and embeds found in what is left of a run.
* `tagPaths_foundLeft`, `movedUp_subset`: when the tags are those that were there before.
-/

namespace TaggedMemos

open Text

variable {path : String} {leaf : Leaf} {previous previous' : Option Char} {c : Char}
variable {text text' name resource rest rest' plain : List Char} {leaves : List Leaf}

/-- The tags on a path. -/
theorem Leaf.isTagOn_eq_true :
    leaf.isTagOn path = true ↔ ∃ raw, leaf = .tag raw ∧ TagPath.normalize raw = path := by
  cases leaf <;> simp [isTagOn]

/-- A tag that is found stands where one may open, and has all tag characters that follow. -/
theorem of_tag_found {raw : String}
    (found : leafAt? previous ((Leaf.tag raw).written ++ rest) =
      some (.tag raw, (Leaf.tag raw).written.length)) :
    opensTag previous = true ∧ IsName raw.toList ∧ ∀ c ∈ rest.head?, isTagChar c = false := by
  rcases tag_or_embed_of_found found with ⟨raw', same, tag⟩ | ⟨resource, same, -⟩
  · obtain rfl := Leaf.tag.inj same
    exact tag
  · cases same

/-! ### What is left of a run -/

/-- What a scan finds, without the tags on a path, in order. -/
def thinned (path : String) (previous : Option Char) (text : List Char) : List Char :=
  ((scanFrom 0 previous [] text).filter fun leaf => !leaf.isTagOn path).flatMap Leaf.written

/-- The tag that a text begins with, where a tag may open. -/
def openingTag? (text : List Char) : Option Leaf :=
  (tagAt? none text).map fun name => .tag (String.ofList name)

/-- The tags that move up when the tags on a path are taken out of a run: what is written behind one
of these begins with such a tag. -/
def movedUp (path : String) : List Leaf → List Leaf
  | [] => []
  | leaf :: leaves =>
    if leaf.isTagOn path then
      (openingTag? (leaves.flatMap Leaf.written)).toList ++ movedUp path leaves
    else movedUp path leaves

/-- The tags and embeds that are found when the tags on a path are taken out of a run: the others,
and those that move up, in order. -/
def foundLeft (path : String) : List Leaf → List Leaf
  | [] => []
  | leaf :: leaves =>
    if leaf.isTagOn path then
      (openingTag? (leaves.flatMap Leaf.written)).toList ++ foundLeft path leaves
    else if leaf.isText then foundLeft path leaves
    else leaf :: foundLeft path leaves

/-- No tag on a path stands between `![` and `[`. -/
def Unbracketed (path : String) (text : List Char) : Prop :=
  ∀ name, TagPath.normalize (String.ofList name) = path →
    ¬ ['!', '[', '#'] ++ name ++ ['['] <:+: text

/-- Where no tag stands between the brackets, none does in the rest. -/
theorem Unbracketed.suffix (free : Unbracketed path text) (part : rest <:+ text) :
    Unbracketed path rest :=
  fun name on inside => free name on (inside.trans part.isInfix)

/-- Where a tag is left out, the tag that moves up is found in its place. -/
theorem foundLeft_cons_on (on : leaf.isTagOn path = true) (leaves : List Leaf) :
    foundLeft path (leaf :: leaves) =
      (openingTag? (leaves.flatMap Leaf.written)).toList ++ foundLeft path leaves :=
  if_pos on

/-- Everything else that is found is found again. -/
theorem foundLeft_cons_other (other : leaf.isTagOn path = false) (special : leaf.isText = false)
    (leaves : List Leaf) : foundLeft path (leaf :: leaves) = leaf :: foundLeft path leaves := by
  rw [foundLeft, other, special]
  rfl

/-- Text in front of a run does not count. -/
theorem foundLeft_textLeaf_append (path : String) (plain : List Char) (leaves : List Leaf) :
    foundLeft path (textLeaf plain ++ leaves) = foundLeft path leaves := by
  rw [textLeaf]
  split <;> rfl

/-- What moves up is found. -/
theorem movedUp_subset (path : String) (leaves : List Leaf) :
    movedUp path leaves ⊆ foundLeft path leaves := by
  induction leaves with
  | nil => exact List.Subset.refl _
  | cons leaf leaves ih =>
      rw [movedUp, foundLeft]
      split
      · exact List.append_subset.mpr ⟨List.subset_append_left _ _,
          List.Subset.trans ih (List.subset_append_right _ _)⟩
      · split
        · exact ih
        · exact List.Subset.trans ih (List.subset_cons_self _ _)

/-- The tags that are found are those that were there, where nothing moves up. -/
theorem tagPaths_foundLeft (none : movedUp path leaves = []) :
    (foundLeft path leaves).filterMap Leaf.tagPath? =
      (leaves.filterMap Leaf.tagPath?).filter (· != path) := by
  induction leaves with
  | nil => rfl
  | cons leaf leaves ih =>
      rw [movedUp] at none
      by_cases on : leaf.isTagOn path = true
      · rw [if_pos on, List.append_eq_nil_iff] at none
        obtain ⟨raw, rfl, rfl⟩ := Leaf.isTagOn_eq_true.mp on
        rw [foundLeft_cons_on on, none.1, List.nil_append, ih none.2]
        simp [Leaf.tagPath?]
      · rw [if_neg on] at none
        rw [foundLeft, if_neg on]
        cases leaf with
        | tag raw =>
            have other : TagPath.normalize raw ≠ path := by simpa [Leaf.isTagOn] using on
            simp [Leaf.isText, Leaf.tagPath?, other, ih none]
        | _ => exact ih none

/-- The resources that are found are those that were there. -/
theorem resources_foundLeft (path : String) (leaves : List Leaf) :
    (foundLeft path leaves).filterMap Leaf.resource? = leaves.filterMap Leaf.resource? := by
  have noResource : ∀ text, (openingTag? text).toList.filterMap Leaf.resource? = [] := by
    intro text
    rw [openingTag?]
    cases tagAt? none text <;> rfl
  induction leaves with
  | nil => rfl
  | cons leaf leaves ih =>
      by_cases on : leaf.isTagOn path = true
      · obtain ⟨raw, rfl, -⟩ := Leaf.isTagOn_eq_true.mp on
        rw [foundLeft_cons_on on, List.filterMap_append, noResource, List.nil_append, ih]
        rfl
      · rw [foundLeft, if_neg on]
        cases leaf with
        | embed resource => exact congrArg (resource :: ·) ih
        | _ => exact ih

/-! ### The scan step by step -/

/-- Text is never left out. -/
theorem filter_textLeaf (path : String) (plain : List Char) :
    (textLeaf plain).filter (fun leaf => !leaf.isTagOn path) = textLeaf plain := by
  rw [textLeaf]
  split <;> rfl

/-- What was collected before is left in front. -/
theorem flatMap_written_filter_scanFrom (plain : List Char) :
    ((scanFrom 0 previous plain text).filter fun leaf => !leaf.isTagOn path).flatMap Leaf.written =
      plain.reverse ++ thinned path previous text := by
  induction previous, text using scan_induction generalizing plain with
  | nil previous =>
      rw [scanFrom, filter_textLeaf, flatMap_written_textLeaf, thinned]
      simp [scanFrom, textLeaf]
  | found previous leaf rest here ih =>
      rw [thinned, scanFrom_found here, scanFrom_found here, List.filter_append,
        filter_textLeaf, List.flatMap_append, flatMap_written_textLeaf]
      rfl
  | other previous c rest missing ih =>
      rw [thinned, scanFrom_other missing, scanFrom_other missing, ih, ih]
      simp

/-- A tag on the path is left out. -/
theorem thinned_tag (on : leaf.isTagOn path = true)
    (found : leafAt? previous (leaf.written ++ rest) = some (leaf, leaf.written.length)) :
    thinned path previous (leaf.written ++ rest) = thinned path leaf.written.getLast? rest := by
  rw [thinned, scanFrom_found found, thinned]
  simp [textLeaf, on]

/-- Everything else that is found is left. -/
theorem thinned_found (other : leaf.isTagOn path = false)
    (found : leafAt? previous (leaf.written ++ rest) = some (leaf, leaf.written.length)) :
    thinned path previous (leaf.written ++ rest) =
      leaf.written ++ thinned path leaf.written.getLast? rest := by
  rw [thinned, scanFrom_found found, thinned]
  simp [textLeaf, other]

/-- A character at which nothing is found is left. -/
theorem thinned_other (path : String) (missing : leafAt? previous (c :: rest) = none) :
    thinned path previous (c :: rest) = c :: thinned path (some c) rest := by
  rw [thinned, scanFrom_other missing, flatMap_written_filter_scanFrom]
  rfl

/-- Text in front of a run does not count for what is found when it is scanned. -/
theorem foundLeft_scanFrom (plain : List Char) :
    foundLeft path (scanFrom 0 previous plain text) =
      foundLeft path (scanFrom 0 previous [] text) := by
  induction previous, text using scan_induction generalizing plain with
  | nil previous =>
      have collected := foundLeft_textLeaf_append path plain []
      rw [List.append_nil] at collected
      rw [scanFrom, collected, scanFrom]
      rfl
  | found previous leaf rest here ih =>
      rw [scanFrom_found here, scanFrom_found here, foundLeft_textLeaf_append,
        foundLeft_textLeaf_append]
  | other previous c rest missing ih =>
      rw [scanFrom_other missing, scanFrom_other missing, ih, ih [c]]

/-! ### A run and what is left of it -/

/-- A run and the same run with some tags on a path left out. Each of them stands behind a character
that opens tags, and goes up to a character that belongs to no tag. -/
inductive Thinned (path : String) : Option Char → List Char → List Char → Prop
  /-- The runs end. -/
  | nil {previous : Option Char} : Thinned path previous [] []
  /-- The runs have the same character. -/
  | cons {previous : Option Char} (c : Char) {rest rest' : List Char}
      (later : Thinned path (some c) rest rest') : Thinned path previous (c :: rest) (c :: rest')
  /-- The first run has a tag on the path. -/
  | drop {previous : Option Char} {name rest rest' : List Char} (opens : opensTag previous = true)
      (valid : IsName name) (on : TagPath.normalize (String.ofList name) = path)
      (later : Thinned path name.getLast? rest rest') :
      Thinned path previous ('#' :: (name ++ rest)) rest'

/-- No tag opens behind a name. -/
theorem opensTag_of_isName (valid : IsName name) : opensTag name.getLast? = false := by
  rw [List.getLast?_eq_getLast_of_ne_nil valid.1]
  exact opensTag_of_isTagChar (valid.2 _ (List.getLast_mem valid.1))

namespace Thinned

/-- Behind a text that both runs have in common, the one run is what is left of the other. -/
theorem append (front : List Char) (later : Thinned path (front.getLast?.or previous) rest rest') :
    Thinned path previous (front ++ rest) (front ++ rest') := by
  induction front generalizing previous with
  | nil => exact later
  | cons c front ih =>
      refine .cons c (ih ?_)
      rw [List.getLast?_cons] at later
      cases last : front.getLast? with
      | none => simpa [last] using later
      | some d => simpa [last] using later

/-- Where no tag opens, the first characters are the same. -/
theorem head?_eq (same : Thinned path previous text text') (closed : opensTag previous = false) :
    text.head? = text'.head? := by
  cases same with
  | nil => rfl
  | cons c later => rfl
  | drop opens _ _ _ =>
      rw [closed] at opens
      cases opens

/-- Nothing is left of nothing. -/
theorem eq_nil (same : Thinned path previous [] text') : text' = [] := by
  cases same
  rfl

/-- A character that belongs to no tag is in both runs or in neither. -/
theorem mem_iff (same : Thinned path previous text text') (sign : c ≠ '#')
    (other : isTagChar c = false) : c ∈ text ↔ c ∈ text' := by
  induction same with
  | nil => rfl
  | cons d later ih => simp [ih]
  | @drop previous name rest rest' opens valid on later ih =>
      have absent : c ∉ name := by
        intro member
        rw [valid.2 c member] at other
        cases other
      simp [sign, absent, ih]

/-- Two closing brackets stand at the front of both runs or of neither. -/
theorem closes_iff (same : Thinned path (some c) rest rest') :
    [']', ']'] <+: c :: rest ↔ [']', ']'] <+: c :: rest' := by
  rw [List.cons_prefix_cons, List.cons_prefix_cons]
  refine and_congr_right ?_
  rintro rfl
  have first := same.head?_eq (by decide)
  cases rest <;> cases rest' <;> simp_all [List.cons_prefix_cons]

/-- **A search for closing brackets finds the corresponding place**: no two of them are joined. -/
theorem before?_eq_some {found' : List Char} (same : Thinned path previous text text')
    (here : before? [']', ']'] text' = some found') :
    ∃ found, before? [']', ']'] text = some found ∧ Thinned path previous found found' := by
  induction same generalizing found' with
  | nil => cases here
  | @cons previous d rest rest' later ih =>
      have begins := later.closes_iff
      by_cases first : [']', ']'] <+: d :: rest'
      · rw [before?, if_pos (List.isPrefixOf_iff_prefix.mpr first)] at here
        obtain rfl := Option.some.inj here
        exact ⟨[], if_pos (List.isPrefixOf_iff_prefix.mpr (begins.mpr first)), .nil⟩
      · rw [before?, if_neg (by rwa [List.isPrefixOf_iff_prefix])] at here
        obtain ⟨behind', found_behind, rfl⟩ := Option.map_eq_some_iff.mp here
        obtain ⟨behind, there, same⟩ := ih found_behind
        refine ⟨d :: behind, ?_, .cons d same⟩
        rw [before?, if_neg (by rwa [List.isPrefixOf_iff_prefix, begins]), there]
        rfl
  | @drop previous name rest rest' opens valid on later ih =>
      have absent : ']' ∉ '#' :: name := by
        intro member
        rcases List.mem_cons.mp member with same | member
        · cases same
        · exact absurd (valid.2 _ member) (by decide)
      obtain ⟨behind, there, same⟩ := ih here
      refine ⟨'#' :: (name ++ behind), ?_, .drop opens valid on same⟩
      rw [← List.cons_append, before?_append absent, there]
      rfl

end Thinned

/-- What is left of a run is the run without some tags. -/
theorem thinned_thinned (path : String) (previous : Option Char) (text : List Char) :
    Thinned path previous text (thinned path previous text) := by
  induction previous, text using scan_induction with
  | nil previous => exact .nil
  | found previous leaf rest here ih =>
      cases on : leaf.isTagOn path with
      | true =>
          obtain ⟨raw, rfl, same⟩ := Leaf.isTagOn_eq_true.mp on
          obtain ⟨opens, valid, -⟩ := of_tag_found here
          rw [thinned_tag on here]
          rw [Leaf.written_tag, List.getLast?_cons_of_ne_nil valid.1] at ih ⊢
          exact .drop opens valid (by rwa [String.ofList_toList]) ih
      | false =>
          rw [thinned_found on here]
          refine Thinned.append _ ?_
          obtain ⟨c, front, written⟩ : ∃ c front, leaf.written = c :: front := by
            refine List.exists_cons_of_ne_nil fun empty => ?_
            exact absurd (leafAt?_eq_some here).2.1 (by simp [empty])
          rw [written] at ih ⊢
          rwa [List.getLast?_cons] at ih ⊢
  | other previous c rest missing ih =>
      rw [thinned_other path missing]
      exact .cons c ih

/-! ### Tags and embeds in what is left -/

/-- Where no embed is, there is none in what is left, if no tag stands between the brackets. -/
theorem embedAt?_eq_none_of_thinned (free : Unbracketed path (c :: rest))
    (missing : embedAt? (c :: rest) = none) (same : Thinned path (some c) rest rest') :
    embedAt? (c :: rest') = none := by
  rw [Option.eq_none_iff_forall_ne_some] at missing ⊢
  intro resource' here
  obtain ⟨inner', whole, first', filled', oneLine'⟩ := embedAt?_eq_some_iff.mp here
  obtain ⟨rfl, rfl⟩ := List.cons.inj whole
  obtain ⟨inner, rfl, inside⟩ : ∃ inner, rest = '[' :: '[' :: inner ∧
      Thinned path (some '[') inner inner' := by
    cases same with
    | @cons _ _ rest _ later =>
        cases later with
        | cons _ later => exact ⟨_, rfl, later⟩
        | @drop _ name behind _ opens valid on later =>
            -- The second bracket stands behind a tag that is left out.
            have first := later.head?_eq (opensTag_of_isName valid)
            obtain ⟨behind, rfl⟩ : ∃ more, behind = '[' :: more := by
              cases behind with
              | nil => cases first
              | cons d more =>
                  obtain rfl := Option.some.inj first
                  exact ⟨more, rfl⟩
            exact absurd ⟨[], behind, by simp⟩ (free name on)
    | drop opens _ _ _ => exact absurd opens (by decide)
  obtain ⟨resource, first, alike⟩ := inside.before?_eq_some (before?_eq_some_iff.mpr first')
  refine missing resource (embedAt?_eq_some_iff.mpr
    ⟨inner, rfl, before?_eq_some_iff.mp first, ?_, ?_⟩)
  · rintro rfl
    exact filled' alike.eq_nil
  · rwa [alike.mem_iff (by decide) (by decide)]

/-- Where no tag is, there is none in what is left, if the character in front opens no other. -/
theorem tagAt?_eq_none_of_thinned (opens : opensTag previous' = opensTag previous)
    (missing : tagAt? previous (c :: rest) = none) (same : Thinned path (some c) rest rest') :
    tagAt? previous' (c :: rest') = none := by
  rw [Option.eq_none_iff_forall_ne_some] at missing ⊢
  intro name' here
  obtain ⟨_, whole, opens', filled, rfl⟩ := tagAt?_eq_some_iff.mp here
  obtain ⟨rfl, rfl⟩ := List.cons.inj whole
  refine missing _ (tagAt?_eq_some_iff.mpr ⟨_, rfl, opens ▸ opens', fun empty => filled ?_, rfl⟩)
  rw [takeWhile_eq_nil] at empty ⊢
  rwa [← same.head?_eq (by decide)]

/-! ### Scanning again -/

/-- A character that belongs to a tag begins nothing. -/
theorem leafAt?_of_isTagChar (char : isTagChar c = true) : leafAt? previous (c :: rest) = none := by
  have sign : c ≠ '#' := by
    rintro rfl
    cases char
  have mark : c ≠ '!' := by
    rintro rfl
    cases char
  have noTag : tagAt? previous (c :: rest) = none := by
    rw [tagAt?]
    rintro rest' same
    exact sign (List.cons.inj same).1
  have noEmbed : embedAt? (c :: rest) = none := by
    simp [embedAt?, stripPrefix?, Ne.symm mark]
  exact leafAt?_eq_none.mpr ⟨noTag, noEmbed⟩

/-- A name behind something else than an opening character is text. -/
theorem scanFrom_name (chars : ∀ c ∈ name, isTagChar c = true) (plain : List Char) :
    scanFrom 0 previous plain (name ++ rest) =
      scanFrom 0 (name.getLast?.or previous) (name.reverse ++ plain) rest := by
  induction name generalizing previous plain with
  | nil => rfl
  | cons c name ih =>
      obtain ⟨char, chars⟩ := List.forall_mem_cons.mp chars
      rw [List.cons_append, scanFrom_other (leafAt?_of_isTagChar char), ih chars,
        List.getLast?_cons]
      cases name.getLast? <;> simp

/-- A name that is text is left. -/
theorem thinned_name (chars : ∀ c ∈ name, isTagChar c = true) :
    thinned path previous (name ++ rest) =
      name ++ thinned path (name.getLast?.or previous) rest := by
  rw [thinned, scanFrom_name chars, flatMap_written_filter_scanFrom]
  simp

/-- The tag that moves up when the character in front opens tags and did not before. -/
def promoted (previous previous' : Option Char) (text : List Char) : List Leaf :=
  if opensTag previous' && !opensTag previous then (openingTag? text).toList else []

/-- Nothing moves up if the character in front is the same. -/
theorem promoted_self (previous : Option Char) (text : List Char) :
    promoted previous previous text = [] := by
  simp [promoted]

/-- Nothing moves up if a tag could open before. -/
theorem promoted_of_opens (opens : opensTag previous = true) :
    promoted previous previous' text = [] := by
  simp [promoted, opens]

/-- A tag that moves up is a `#` with a name behind it. -/
theorem exists_of_promoted {moved : Leaf} {more : List Leaf}
    (promotes : promoted previous previous' text = moved :: more) :
    opensTag previous' = true ∧ opensTag previous = false ∧ ∃ name rest,
      text = '#' :: (name ++ rest) ∧ IsName name ∧ (∀ c ∈ rest.head?, isTagChar c = false) ∧
        moved = .tag (String.ofList name) ∧ more = [] := by
  rw [promoted] at promotes
  split at promotes
  · next opens =>
      rw [Bool.and_eq_true, Bool.not_eq_true'] at opens
      cases tag : tagAt? none text with
      | none => simp [openingTag?, tag] at promotes
      | some name =>
          obtain ⟨-, filled, chars⟩ := tagAt?_eq_some tag
          obtain ⟨rest, rfl, -, -, maximal⟩ := tagAt?_eq_some_iff.mp tag
          obtain ⟨behind, rfl⟩ : name <+: rest := maximal ▸ List.takeWhile_prefix _
          rw [List.takeWhile_append_of_pos chars] at maximal
          have edge := takeWhile_eq_nil.mp (List.append_right_eq_self.mp maximal.symm)
          simp only [openingTag?, tag, Option.map_some, Option.toList_some, List.cons.injEq,
            List.nil_eq] at promotes
          exact ⟨opens.1, opens.2, name, behind, rfl, ⟨filled, chars⟩, edge, promotes.1.symm,
            promotes.2⟩
  · cases promotes

/-- Where nothing was found, and no tag moves up, nothing is found in what is left. -/
theorem leafAt?_eq_none_of_thinned (free : Unbracketed path (c :: rest))
    (missing : leafAt? previous (c :: rest) = none) (same : Thinned path (some c) rest rest')
    (opens : opensTag previous = true → opensTag previous' = true)
    (unmoved : promoted previous previous' (c :: rest) = []) :
    leafAt? previous' (c :: rest') = none := by
  obtain ⟨noTag, noEmbed⟩ := leafAt?_eq_none.mp missing
  refine leafAt?_eq_none.mpr ⟨?_, embedAt?_eq_none_of_thinned free noEmbed same⟩
  by_cases alike : opensTag previous' = opensTag previous
  · exact tagAt?_eq_none_of_thinned alike noTag same
  · have closed : opensTag previous = false := by
      rw [Bool.eq_false_iff]
      exact fun opened => alike ((opens opened).trans opened.symm)
    have opened : opensTag previous' = true := by
      rwa [closed, Bool.not_eq_false] at alike
    have noTag' : tagAt? none (c :: rest) = none := by
      simpa [promoted, opened, closed, openingTag?] using unmoved
    have alike' : opensTag previous' = opensTag none := opened
    exact tagAt?_eq_none_of_thinned alike' noTag' same

/-! Each of the steps in which a run is scanned has its counterpart in the scan of what is left. -/

/-- What is found and not left out is found again. -/
theorem leafAt?_thinned
    (found : leafAt? previous (leaf.written ++ rest) = some (leaf, leaf.written.length))
    (opens : opensTag previous = true → opensTag previous' = true) :
    leafAt? previous' (leaf.written ++ thinned path leaf.written.getLast? rest) =
      some (leaf, leaf.written.length) := by
  rcases tag_or_embed_of_found found with ⟨raw, rfl, opened, valid, edge⟩ | ⟨resource, rfl, embed⟩
  · have same := thinned_thinned path (Leaf.tag raw).written.getLast? rest
    exact leafAt?_tag (opens opened) valid (same.head?_eq (opensTag_of_tag valid) ▸ edge)
  · exact leafAt?_embed (embedAt?_append embed)

/-- Text is not among what is found. -/
theorem filter_not_isText_textLeaf (plain : List Char) :
    (textLeaf plain).filter (fun leaf => !leaf.isText) = [] := by
  rw [textLeaf]
  split <;> rfl

/-- The step in which something is found and not left out. -/
theorem filter_scanFrom_found (other : leaf.isTagOn path = false)
    (found : leafAt? previous (leaf.written ++ rest) = some (leaf, leaf.written.length))
    (opens : opensTag previous = true → opensTag previous' = true) (plain : List Char) :
    (scanFrom 0 previous' plain (thinned path previous (leaf.written ++ rest))).filter
        (fun leaf => !leaf.isText) =
      leaf :: (scanFrom 0 leaf.written.getLast? [] (thinned path leaf.written.getLast? rest)).filter
        (fun leaf => !leaf.isText) := by
  rw [thinned_found other found, scanFrom_found (leafAt?_thinned found opens), List.filter_append,
    filter_not_isText_textLeaf, List.nil_append,
    List.filter_cons_of_pos (by simp [isText_of_leafAt? found])]

/-- The step in which a tag moves up. -/
theorem filter_scanFrom_moved (opens : opensTag previous' = true)
    (missing : leafAt? previous ('#' :: (name ++ rest)) = none) (valid : IsName name)
    (edge : ∀ c ∈ rest.head?, isTagChar c = false) (plain : List Char) :
    (scanFrom 0 previous' plain (thinned path previous ('#' :: (name ++ rest)))).filter
        (fun leaf => !leaf.isText) =
      .tag (String.ofList name) :: (scanFrom 0 name.getLast? []
        (thinned path name.getLast? rest)).filter (fun leaf => !leaf.isText) := by
  have same := thinned_thinned path name.getLast? rest
  have last : name.getLast?.or (some '#') = name.getLast? := by
    rw [List.getLast?_eq_getLast_of_ne_nil valid.1, Option.some_or]
  have left : thinned path previous ('#' :: (name ++ rest)) =
      (Leaf.tag (String.ofList name)).written ++ thinned path name.getLast? rest := by
    rw [thinned_other path missing, thinned_name valid.2, last, Leaf.written_tag,
      String.toList_ofList, List.cons_append]
  have here : leafAt? previous'
      ((Leaf.tag (String.ofList name)).written ++ thinned path name.getLast? rest) =
        some (.tag (String.ofList name), (Leaf.tag (String.ofList name)).written.length) := by
    refine leafAt?_tag opens (by rwa [String.toList_ofList]) ?_
    rwa [← same.head?_eq (opensTag_of_isName valid)]
  have last' : (Leaf.tag (String.ofList name)).written.getLast? = name.getLast? := by
    rw [Leaf.written_tag, String.toList_ofList, List.getLast?_cons_of_ne_nil valid.1]
  rw [left, scanFrom_found here, List.filter_append, filter_not_isText_textLeaf, List.nil_append,
    List.filter_cons_of_pos rfl, last']

/-- In the run itself such a tag is text. -/
theorem foundLeft_scanFrom_moved (missing : leafAt? previous ('#' :: (name ++ rest)) = none)
    (valid : IsName name) :
    foundLeft path (scanFrom 0 previous [] ('#' :: (name ++ rest))) =
      foundLeft path (scanFrom 0 name.getLast? [] rest) := by
  have last : name.getLast?.or (some '#') = name.getLast? := by
    rw [List.getLast?_eq_getLast_of_ne_nil valid.1, Option.some_or]
  rw [scanFrom_other missing, scanFrom_name valid.2, last, foundLeft_scanFrom]

/-- Where a tag is left out, what moves up is the tag that what comes behind it begins with. -/
theorem promoted_append_foundLeft {raw : String} (on : (Leaf.tag raw).isTagOn path = true)
    (found : leafAt? previous ((Leaf.tag raw).written ++ rest) =
      some (.tag raw, (Leaf.tag raw).written.length)) (opens : opensTag previous' = true) :
    promoted (Leaf.tag raw).written.getLast? previous' rest ++
        foundLeft path (scanFrom 0 (Leaf.tag raw).written.getLast? [] rest) =
      foundLeft path (scanFrom 0 previous [] ((Leaf.tag raw).written ++ rest)) := by
  obtain ⟨-, valid, -⟩ := of_tag_found found
  have behind : (scanFrom 0 (Leaf.tag raw).written.getLast? [] rest).flatMap Leaf.written =
      rest := by
    simp [flatMap_written_scanFrom]
  rw [scanFrom_found found, foundLeft_textLeaf_append, foundLeft_cons_on on, behind, promoted,
    opens, opensTag_of_tag valid]
  rfl

/-- Nothing moves up where something is found. -/
theorem promoted_of_found
    (found : leafAt? previous (leaf.written ++ rest) = some (leaf, leaf.written.length)) :
    promoted previous previous' (leaf.written ++ rest) = [] := by
  rcases tag_or_embed_of_found found with ⟨raw, rfl, opened, -⟩ | ⟨resource, rfl, -⟩
  · exact promoted_of_opens opened
  · simp [promoted, openingTag?, tagAt?, Leaf.written_embed]

/-- **The tags and embeds in what is left of a run** are those of `foundLeft`. There is one more tag
in front if the run is scanned behind a character that opens tags, and was not before. -/
theorem scanFrom_thinned (free : Unbracketed path text)
    (opens : opensTag previous = true → opensTag previous' = true) (plain : List Char) :
    (scanFrom 0 previous' plain (thinned path previous text)).filter (fun leaf => !leaf.isText) =
      promoted previous previous' text ++ foundLeft path (scanFrom 0 previous [] text) := by
  induction size : text.length using Nat.strongRecOn generalizing previous previous' plain text with
  | ind n ih =>
      have onward : ∀ previous rest plain, rest.length < n → Unbracketed path rest →
          (scanFrom 0 previous plain (thinned path previous rest)).filter
            (fun leaf => !leaf.isText) = foundLeft path (scanFrom 0 previous [] rest) := by
        intro previous rest plain shorter free
        have again :=
          ih _ shorter free (fun opened => opened : _ → opensTag previous = true) plain rfl
        rwa [promoted_self, List.nil_append] at again
      rcases scan_cases previous text with rfl | ⟨leaf, rest, rfl, here⟩ | ⟨c, rest, rfl, missing⟩
      · have empty : promoted previous previous' [] = [] := by simp [promoted, openingTag?, tagAt?]
        rw [empty]
        exact filter_not_isText_textLeaf plain
      · have shorter : rest.length < n := by
          have positive := length_written_pos here
          rw [List.length_append] at size
          omega
        have free' := free.suffix (List.suffix_append leaf.written rest)
        cases on : leaf.isTagOn path with
        | true =>
            -- What follows moves up behind the character that opened the tag.
            obtain ⟨raw, rfl, -⟩ := Leaf.isTagOn_eq_true.mp on
            obtain ⟨opened, -⟩ := of_tag_found here
            rw [thinned_tag on here, ih _ shorter free' (fun _ => opens opened) plain rfl,
              promoted_append_foundLeft on here (opens opened), promoted_of_found here,
              List.nil_append]
        | false =>
            rw [filter_scanFrom_found on here opens, onward _ _ _ shorter free',
              promoted_of_found here, scanFrom_found here, foundLeft_textLeaf_append,
              foundLeft_cons_other on (isText_of_leafAt? here), List.nil_append]
      · have free' := free.suffix (List.suffix_cons c rest)
        cases moved : promoted previous previous' (c :: rest) with
        | nil =>
            have missing' := leafAt?_eq_none_of_thinned free missing
              (thinned_thinned path (some c) rest) opens moved
            rw [thinned_other path missing, scanFrom_other missing', scanFrom_other missing,
              foundLeft_scanFrom [c], onward _ _ _ (by simp [← size]) free', List.nil_append]
        | cons first more =>
            obtain ⟨opened, -, name, behind, whole, valid, edge, rfl, rfl⟩ :=
              exists_of_promoted moved
            obtain ⟨rfl, rfl⟩ := List.cons.inj whole
            have shorter : behind.length < n := by
              rw [← size, List.length_cons, List.length_append]
              omega
            rw [filter_scanFrom_moved opened missing valid edge,
              foundLeft_scanFrom_moved missing valid,
              onward _ _ _ shorter (free'.suffix (List.suffix_append name behind))]
            rfl

/-- **Scanning what is left of a run** gives the tags and embeds that are left, and text. -/
theorem scanRun_thinned (free : Unbracketed path text) (escaped : Bool) :
    (scanRun escaped (((scanRun escaped text).filter fun leaf => !leaf.isTagOn path).flatMap
        Leaf.written)).filter (fun leaf => !leaf.isText) =
      foundLeft path (scanRun escaped text) := by
  have again := scanFrom_thinned free
    (fun opened : opensTag (if escaped then some '\\' else none) = true => opened) []
  rwa [promoted_self, List.nil_append] at again

end TaggedMemos
