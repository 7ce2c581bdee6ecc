import TaggedMemos.Forest.Edit
import TaggedMemos.Proofs.InlineGrammar
import TaggedMemos.Proofs.MarkerText

/-!
# Scanning a Renamed Run Again

A scan looks back at one character and ahead for a `]]` that may be far away, so another name in a
tag could change how the text around it is read. It does not, if the new name consists of tag
characters. The character before what follows a tag is a tag character in both runs, and opens no
tag. And the two runs differ in names of tags only: a name has neither brackets nor line feeds, so
the first `]]` stands at the corresponding place in both, and what is before it is empty, or goes
over several lines, in both or in neither. An embed that was left unfinished remains so.

## Main results

* `SameButNames.before?_eq_some`: a search finds the corresponding place.
* `scanFrom_rewritten`: a run with other names has the same leaves, but for the names.
* `rescan_renamed`: scanning a renamed run gives the renamed leaves.
-/

namespace TaggedMemos

open Text

variable {leaf : Leaf} {previous previous' : Option Char} {c : Char}
variable {text text' name resource rest rest' : List Char}

/-! ### Runs with other names -/

/-- Two runs that differ in the names of tags only. -/
inductive SameButNames : List Char → List Char → Prop
  /-- The runs end. -/
  | nil : SameButNames [] []
  /-- The runs have the same character. -/
  | cons (c : Char) {rest rest' : List Char} (later : SameButNames rest rest') :
      SameButNames (c :: rest) (c :: rest')
  /-- Each run has a tag. -/
  | tag {name name' rest rest' : List Char} (valid : IsName name) (valid' : IsName name')
      (later : SameButNames rest rest') :
      SameButNames ('#' :: (name ++ rest)) ('#' :: (name' ++ rest'))

namespace SameButNames

/-- A text in front is the same in both runs. -/
theorem append (front : List Char) (later : SameButNames rest rest') :
    SameButNames (front ++ rest) (front ++ rest') := by
  induction front with
  | nil => exact later
  | cons c front ih => exact .cons c ih

/-- Both runs begin with the same character. -/
theorem head?_eq (same : SameButNames text text') : text.head? = text'.head? := by
  cases same <;> rfl

/-- One run is empty exactly if the other is. -/
theorem eq_nil_iff (same : SameButNames text text') : text = [] ↔ text' = [] := by
  cases same <;> simp

/-- A character that belongs to no tag is in both runs or in neither. -/
theorem mem_iff (same : SameButNames text text') (sign : c ≠ '#') (other : isTagChar c = false) :
    c ∈ text ↔ c ∈ text' := by
  have absent : ∀ {name : List Char}, IsName name → c ∉ name := by
    intro name valid member
    rw [valid.2 c member] at other
    cases other
  induction same with
  | nil => rfl
  | cons d later ih => simp [ih]
  | tag valid valid' later ih => simp [sign, absent valid, absent valid', ih]

/-- What has no number sign stands at the beginning of both runs or of neither. -/
theorem prefix_iff (same : SameButNames text text') {part : List Char} (free : '#' ∉ part) :
    part <+: text ↔ part <+: text' := by
  induction part generalizing text text' with
  | nil => simp
  | cons c part ih =>
      rw [List.mem_cons, not_or] at free
      cases same with
      | nil => rfl
      | cons d later => rw [List.cons_prefix_cons, List.cons_prefix_cons, ih later free.2]
      | tag _ _ _ => simp [List.cons_prefix_cons, Ne.symm free.1]

/-- A search for what no tag has finds corresponding places. -/
theorem before?_eq_some {part found' : List Char} (same : SameButNames text text')
    (free : '#' ∉ c :: part) (other : isTagChar c = false)
    (here : before? (c :: part) text' = some found') :
    ∃ found, before? (c :: part) text = some found ∧ SameButNames found found' := by
  induction same generalizing found' with
  | nil => cases here
  | @cons d rest rest' later ih =>
      have begins := (SameButNames.cons d later).prefix_iff free
      by_cases first : c :: part <+: d :: rest'
      · rw [before?, if_pos (List.isPrefixOf_iff_prefix.mpr first)] at here
        obtain rfl := Option.some.inj here
        exact ⟨[], if_pos (List.isPrefixOf_iff_prefix.mpr (begins.mpr first)), .nil⟩
      · rw [before?, if_neg (by rwa [List.isPrefixOf_iff_prefix])] at here
        obtain ⟨behind', found_behind, rfl⟩ := Option.map_eq_some_iff.mp here
        obtain ⟨behind, there, same⟩ := ih found_behind
        refine ⟨d :: behind, ?_, .cons d same⟩
        rw [before?, if_neg (by rwa [List.isPrefixOf_iff_prefix, begins]), there]
        rfl
  | @tag name name' rest rest' valid valid' later ih =>
      have absent : ∀ {name : List Char}, IsName name → c ∉ '#' :: name := by
        intro name valid member
        rcases List.mem_cons.mp member with rfl | member
        · exact free List.mem_cons_self
        · rw [valid.2 c member] at other
          cases other
      rw [← List.cons_append, before?_append (absent valid')] at here
      obtain ⟨behind', found_behind, rfl⟩ := Option.map_eq_some_iff.mp here
      obtain ⟨behind, there, same⟩ := ih found_behind
      refine ⟨'#' :: (name ++ behind), ?_, .tag valid valid' same⟩
      rw [← List.cons_append, before?_append (absent valid), there]
      rfl

end SameButNames

/-! ### What is found in a run with other names -/

/-- Nothing is found exactly if there is no tag and no embed. -/
theorem leafAt?_eq_none :
    leafAt? previous text = none ↔ tagAt? previous text = none ∧ embedAt? text = none := by
  rw [leafAt?]
  cases tagAt? previous text <;> simp

/-- A name goes up to a character that belongs to no tag. -/
theorem tagAt?_append (opens : opensTag previous = true) (valid : IsName name)
    (edge : ∀ c ∈ rest.head?, isTagChar c = false) :
    tagAt? previous ('#' :: (name ++ rest)) = some name := by
  refine tagAt?_eq_some_iff.mpr ⟨_, rfl, opens, valid.1, ?_⟩
  rw [List.takeWhile_append_of_pos valid.2, takeWhile_eq_nil.mpr edge, List.append_nil]

/-- Where no tag is, there is none with other names further on. -/
theorem tagAt?_eq_none_of_same (same : SameButNames rest rest')
    (opens : opensTag previous' = opensTag previous)
    (missing : tagAt? previous (c :: rest) = none) : tagAt? previous' (c :: rest') = none := by
  rw [Option.eq_none_iff_forall_ne_some] at missing ⊢
  intro name' here
  obtain ⟨_, whole, opens', filled, rfl⟩ := tagAt?_eq_some_iff.mp here
  obtain ⟨rfl, rfl⟩ := List.cons.inj whole
  refine missing _ (tagAt?_eq_some_iff.mpr ⟨_, rfl, opens ▸ opens', fun empty => filled ?_, rfl⟩)
  rw [takeWhile_eq_nil] at empty ⊢
  rwa [← same.head?_eq]

/-- Where no embed is, there is none with other names further on. -/
theorem embedAt?_eq_none_of_same (same : SameButNames rest rest')
    (missing : embedAt? (c :: rest) = none) : embedAt? (c :: rest') = none := by
  rw [Option.eq_none_iff_forall_ne_some] at missing ⊢
  intro resource' here
  obtain ⟨inner', whole, first', filled', oneLine'⟩ := embedAt?_eq_some_iff.mp here
  obtain ⟨rfl, rfl⟩ := List.cons.inj whole
  -- no tag begins with a bracket, so the mark of the embed is in both runs
  obtain ⟨inner, rfl, inside⟩ : ∃ inner, rest = '[' :: '[' :: inner ∧
      SameButNames inner inner' := by
    cases same with
    | cons _ later =>
        cases later with
        | cons _ later => exact ⟨_, rfl, later⟩
  obtain ⟨resource, first, alike⟩ :=
    inside.before?_eq_some (by decide) (by decide) (before?_eq_some_iff.mpr first')
  have closed := before?_eq_some_iff.mp first
  refine missing resource (embedAt?_eq_some_iff.mpr ⟨inner, rfl, closed, ?_, ?_⟩)
  · exact fun empty => filled' (alike.eq_nil_iff.mp empty)
  · rwa [alike.mem_iff (by decide) (by decide)]

/-- What is behind an embed makes no difference to it. -/
theorem embedAt?_append (found : embedAt? (['!', '[', '['] ++ resource ++ [']', ']'] ++ rest) =
    some resource) :
    embedAt? (['!', '[', '['] ++ resource ++ [']', ']'] ++ rest') = some resource := by
  obtain ⟨inner, whole, first, accepted⟩ := embedAt?_eq_some_iff.mp found
  obtain rfl : resource ++ [']', ']'] ++ rest = inner := by simpa using whole
  have same : ['!', '[', '['] ++ resource ++ [']', ']'] ++ rest' =
      ['!', '[', '['] ++ (resource ++ [']', ']'] ++ rest') := by simp
  exact embedAt?_eq_some_iff.mpr ⟨_, same, first.append_congr, accepted⟩

/-! ### Other names in the leaves of a run -/

/-- A leaf with another name, if it is a tag. -/
def Leaf.mapName (f : String → String) : Leaf → Leaf
  | tag raw => tag (f raw)
  | leaf => leaf

/-- What a scan finds, with other names, in order. -/
def rewritten (f : String → String) (previous : Option Char) (text : List Char) : List Char :=
  ((scanFrom 0 previous [] text).map (Leaf.mapName f)).flatMap Leaf.written

variable {f : String → String}

/-- Text has no name to change. -/
theorem map_mapName_textLeaf (plain : List Char) :
    (textLeaf plain).map (Leaf.mapName f) = textLeaf plain := by
  rw [textLeaf]
  split <;> rfl

/-- What was collected before is written first. -/
theorem flatMap_written_map_scanFrom (plain : List Char) :
    ((scanFrom 0 previous plain text).map (Leaf.mapName f)).flatMap Leaf.written =
      plain.reverse ++ rewritten f previous text := by
  induction previous, text using scan_induction generalizing plain with
  | nil previous =>
      rw [scanFrom, map_mapName_textLeaf, flatMap_written_textLeaf, rewritten]
      simp [scanFrom, textLeaf]
  | found previous leaf rest here ih =>
      rw [rewritten, scanFrom_found here, scanFrom_found here]
      simp [map_mapName_textLeaf, flatMap_written_textLeaf]
  | other previous c rest missing ih =>
      rw [rewritten, scanFrom_other missing, scanFrom_other missing, ih, ih]
      simp

/-- What is found is written with its new name. -/
theorem rewritten_found
    (found : leafAt? previous (leaf.written ++ rest) = some (leaf, leaf.written.length)) :
    rewritten f previous (leaf.written ++ rest) =
      (leaf.mapName f).written ++ rewritten f leaf.written.getLast? rest := by
  rw [rewritten, scanFrom_found found, rewritten]
  simp [textLeaf]

/-- Every other character is kept. -/
theorem rewritten_other (missing : leafAt? previous (c :: rest) = none) :
    rewritten f previous (c :: rest) = c :: rewritten f (some c) rest := by
  rw [rewritten, scanFrom_other missing, flatMap_written_map_scanFrom]
  rfl

/-- What is found is a tag with a name that goes up to another character, or an embed. -/
theorem tag_or_embed_of_found
    (found : leafAt? previous (leaf.written ++ rest) = some (leaf, leaf.written.length)) :
    (∃ raw, leaf = .tag raw ∧ opensTag previous = true ∧ IsName raw.toList ∧
      ∀ c ∈ rest.head?, isTagChar c = false) ∨
    ∃ resource, leaf = .embed resource ∧
      embedAt? (['!', '[', '['] ++ resource.toList ++ [']', ']'] ++ rest) =
        some resource.toList := by
  rcases tag_or_embed_of_leafAt? found with ⟨raw, rfl⟩ | ⟨resource, rfl⟩
  · have here := leafAt?_eq_tag.mp ⟨_, found⟩
    obtain ⟨-, filled, chars⟩ := tagAt?_eq_some here
    rw [Leaf.written_tag, List.cons_append] at here
    obtain ⟨_, whole, opens, -, maximal⟩ := tagAt?_eq_some_iff.mp here
    obtain ⟨-, rfl⟩ := List.cons.inj whole
    refine .inl ⟨raw, rfl, opens, ⟨filled, chars⟩, ?_⟩
    rw [List.takeWhile_append_of_pos chars] at maximal
    exact takeWhile_eq_nil.mp (List.append_right_eq_self.mp maximal.symm)
  · have here := leafAt?_eq_embed.mp ⟨_, found⟩
    rw [Leaf.written_embed] at here
    exact .inr ⟨resource, rfl, here⟩

/-- A scan finds a tag with any other name in its place. -/
theorem leafAt?_tag {raw : String} (opens : opensTag previous = true) (valid : IsName raw.toList)
    (edge : ∀ c ∈ rest.head?, isTagChar c = false) :
    leafAt? previous ((Leaf.tag raw).written ++ rest) =
      some (.tag raw, (Leaf.tag raw).written.length) := by
  rw [Leaf.written_tag, List.cons_append, leafAt?, tagAt?_append opens valid edge]
  simp

/-- An embed is found where its written form stands, if the embed can be read there. -/
theorem leafAt?_embed {resource : String}
    (found : embedAt? (['!', '[', '['] ++ resource.toList ++ [']', ']'] ++ rest) =
      some resource.toList) :
    leafAt? previous ((Leaf.embed resource).written ++ rest) =
      some (.embed resource, (Leaf.embed resource).written.length) := by
  have noTag : tagAt? previous (['!', '[', '['] ++ resource.toList ++ [']', ']'] ++ rest) = none :=
    rfl
  rw [Leaf.written_embed, leafAt?, noTag, found]
  simp

/-- No tag opens right behind a tag. -/
theorem opensTag_of_tag {raw : String} (valid : IsName raw.toList) :
    opensTag (Leaf.tag raw).written.getLast? = false := by
  obtain ⟨filled, chars⟩ := valid
  rw [Leaf.written_tag, List.getLast?_cons_of_ne_nil filled,
    List.getLast?_eq_getLast_of_ne_nil filled]
  exact opensTag_of_isTagChar (chars _ (List.getLast_mem filled))

/-- A run with other names is the same but for names. -/
theorem sameButNames_rewritten (valid : ∀ raw, IsName raw.toList → IsName (f raw).toList)
    (previous : Option Char) (text : List Char) :
    SameButNames text (rewritten f previous text) := by
  induction previous, text using scan_induction with
  | nil previous => exact .nil
  | found previous leaf rest here ih =>
      rw [rewritten_found here]
      rcases tag_or_embed_of_found here with ⟨raw, rfl, -, name, -⟩ | ⟨resource, rfl, -⟩
      · exact .tag name (valid raw name) ih
      · exact ih.append _
  | other previous c rest missing ih =>
      rw [rewritten_other missing]
      exact .cons c ih

/-- **A run with other names has the same leaves**, but for the names. The character before may be
another one, if it opens a tag just as well. -/
theorem scanFrom_rewritten (valid : ∀ raw, IsName raw.toList → IsName (f raw).toList)
    (previous : Option Char) (text : List Char) (opens : opensTag previous' = opensTag previous)
    (plain : List Char) :
    scanFrom 0 previous' plain (rewritten f previous text) =
      (scanFrom 0 previous plain text).map (Leaf.mapName f) := by
  induction previous, text using scan_induction generalizing previous' plain with
  | nil previous =>
      rw [scanFrom, map_mapName_textLeaf]
      rfl
  | found previous leaf rest here ih =>
      have same := sameButNames_rewritten valid leaf.written.getLast? rest
      have again : leafAt? previous' ((leaf.mapName f).written ++
            rewritten f leaf.written.getLast? rest) =
          some (leaf.mapName f, (leaf.mapName f).written.length) ∧
          opensTag (leaf.mapName f).written.getLast? = opensTag leaf.written.getLast? := by
        rcases tag_or_embed_of_found here with
          ⟨raw, rfl, opens', name, edge⟩ | ⟨resource, rfl, embed⟩
        · -- both names end in tag characters, so what follows is looked at in the same way
          have name' := valid raw name
          refine ⟨leafAt?_tag (opens.trans opens') name' (same.head?_eq ▸ edge), ?_⟩
          exact (opensTag_of_tag name').trans (opensTag_of_tag name).symm
        · exact ⟨leafAt?_embed (embedAt?_append embed), rfl⟩
      rw [rewritten_found here, scanFrom_found again.1, scanFrom_found here, List.map_append,
        map_mapName_textLeaf, List.map_cons, ih again.2]
  | other previous c rest missing ih =>
      have same := sameButNames_rewritten valid (some c) rest
      obtain ⟨noTag, noEmbed⟩ := leafAt?_eq_none.mp missing
      have missing' : leafAt? previous' (c :: rewritten f (some c) rest) = none :=
        leafAt?_eq_none.mpr
          ⟨tagAt?_eq_none_of_same same opens noTag, embedAt?_eq_none_of_same same noEmbed⟩
      rw [rewritten_other missing, scanFrom_other missing', scanFrom_other missing, ih rfl]

/-! ### Renamed runs -/

/-- The leaves of a run after a renaming. -/
def renamedRun (old new : String) (escaped : Bool) (text : List Char) : Forest :=
  (Forest.renameTag old new ((scanRun escaped text).map Node.leaf)).result

/-- The name of a tag after a renaming. -/
def renamedName (old new raw : String) : String :=
  if TagPath.normalize raw = old then TagPath.withoutSlash new else raw

/-- A renaming of leaves changes their names. -/
theorem Forest.renameTag_map_leaf (old new : String) (leaves : List Leaf) :
    (renameTag old new (leaves.map Node.leaf)).result =
      (leaves.map (Leaf.mapName (renamedName old new))).map Node.leaf := by
  induction leaves with
  | nil => rfl
  | cons leaf leaves ih =>
      have first : (leaf.renameTag old new).result = leaf.mapName (renamedName old new) := by
        cases leaf with
        | tag raw =>
            by_cases on : TagPath.normalize raw = old
            · simp [Leaf.renameTag, Leaf.mapName, renamedName, on]
            · simp [Leaf.renameTag, Leaf.mapName, renamedName, on]
        | _ => rfl
      simp [renameTag, Node.renameTag, ih, first]

/-- The new name of a tag is a name, if the new path consists of tag characters. -/
theorem isName_renamedName {old new : String} (canonical : TagPath.IsCanonical new)
    (chars : ∀ c ∈ new.toList, isTagChar c = true) (raw : String) (name : IsName raw.toList) :
    IsName (renamedName old new raw).toList := by
  rw [renamedName]
  split
  · refine ⟨canonical.withoutSlash_ne_nil, fun c member => chars c ?_⟩
    rw [canonical.toList_eq]
    exact List.mem_cons_of_mem _ member
  · exact name

/-- **Scanning a renamed run gives the renamed leaves**, if the new path consists of tag
characters. -/
theorem rescan_renamed {typed new : String} (accepted : TagPath.validate typed = .ok new)
    (chars : ∀ c ∈ new.toList, isTagChar c = true) (old : String) (escaped : Bool)
    (text : List Char) :
    (scanRun escaped (renamedRun old new escaped text).toMarkdown.toList).map Node.leaf =
      renamedRun old new escaped text := by
  have canonical := (TagPath.isCanonical_of_validate accepted).1
  rw [renamedRun, Forest.renameTag_map_leaf, Forest.toMarkdown, Forest.toMarkdownBy_eq,
    String.toList_ofList, Forest.writtenBy_map_leaf]
  congr 1
  exact scanFrom_rewritten (isName_renamedName canonical chars) _ text rfl []

/-- An embed is left unfinished because of a line feed, another one hides the tag, and two tags on
the path stand in the way of the first. -/
theorem rescan_renamed_unfinished :
    let text := "![[#a\n(#a/ ]] ![[ #a]]#a".toList
    let text' := "![[#b/c\n(#b/c ]] ![[ #a]]#a"
    TagPath.validate "b/c" = .ok "/b/c" ∧ (renamedRun "/a" "/b/c" false text).toMarkdown = text' ∧
      (scanRun false text'.toList).map Node.leaf = renamedRun "/a" "/b/c" false text := by
  intro text text'
  have accepted : TagPath.validate "b/c" = .ok "/b/c" := by decide +kernel
  have chars : "/b/c".toList.all isTagChar = true := by decide +kernel
  have written : (renamedRun "/a" "/b/c" false text).toMarkdown = text' := by decide +kernel
  have again := rescan_renamed accepted (List.all_eq_true.mp chars) "/a" false text
  rw [written] at again
  exact ⟨accepted, written, again⟩

end TaggedMemos
