import Mathlib.Data.List.Infix
import TaggedMemos.Proofs.EditedText
import TaggedMemos.Proofs.Replacement

/-!
# Replacing Some Occurrences

A tag is renamed in a forest by its tag leaves, and in a raw text by the occurrences of its
marker. A leaf that is the marker gives an occurrence, but there may be others: in code, at the
front of a longer tag, or across the end of a leaf. So the forest edit replaces some of the
occurrences and the raw edit all of them, and if no leaf spells the tag otherwise, only the number
of occurrences is left to compare.

Number signs stand at the front of markers only. Therefore no two occurrences overlap, those that
are replaced leave the other ones as they are, and a text in which one was kept differs from the
text in which all were replaced: before the next number sign, the one has the old name and the
other the new one, with the same characters behind.

## Main results

* `PartlyReplaced.le_occurrences`: no more are replaced than there are.
* `PartlyReplaced.eq_replaceAll`, `PartlyReplaced.eq_occurrences`: as many are replaced as there
  are exactly if the text is the one in which all are.
* `partlyReplaced_leaves`: renaming leaves replaces one occurrence for each leaf that is the marker.
* `renamings_agree_iff`: when both ways of renaming give the same text.
-/

namespace TaggedMemos.Text

variable {old new name name' text text' rest part : List Char} {sign c : Char} {k : Nat}

/-! ### Counting occurrences -/

/-- The number of places of a text at which a part of it begins. -/
def occurrences (part text : List Char) : Nat :=
  text.tails.countP part.isPrefixOf

/-- An occurrence at the front counts. -/
theorem occurrences_cons_of_begins (here : part <+: c :: text) :
    occurrences part (c :: text) = occurrences part text + 1 := by
  rw [occurrences, List.tails_cons, List.countP_cons_of_pos (List.isPrefixOf_iff_prefix.mpr here)]
  rfl

/-- A character at which none begins does not count. -/
theorem occurrences_cons_of_not_begins (absent : ¬ part <+: c :: text) :
    occurrences part (c :: text) = occurrences part text := by
  rw [occurrences, List.tails_cons,
    List.countP_cons_of_neg (by rwa [List.isPrefixOf_iff_prefix])]
  rfl

/-- A character in front takes away no occurrence. -/
theorem occurrences_le_cons (part : List Char) (c : Char) (text : List Char) :
    occurrences part text ≤ occurrences part (c :: text) := by
  by_cases here : part <+: c :: text
  · exact (occurrences_cons_of_begins here).symm ▸ Nat.le_succ _
  · exact (occurrences_cons_of_not_begins here).ge

/-- What has no sign begins no occurrence. -/
theorem occurrences_append (free : sign ∉ part) :
    occurrences (sign :: name) (part ++ rest) = occurrences (sign :: name) rest := by
  induction part with
  | nil => rfl
  | cons c part ih =>
      rw [List.mem_cons, not_or] at free
      have absent : ¬ sign :: name <+: c :: (part ++ rest) := by
        simp [List.cons_prefix_cons, free.1]
      rw [List.cons_append, occurrences_cons_of_not_begins absent, ih free.2]

/-- Behind an occurrence there is one less. -/
theorem occurrences_append_self (free : sign ∉ name) :
    occurrences (sign :: name) (sign :: name ++ rest) =
      occurrences (sign :: name) rest + 1 := by
  have here : sign :: name <+: sign :: (name ++ rest) := List.prefix_append (sign :: name) rest
  rw [List.cons_append, occurrences_cons_of_begins here, occurrences_append free]

/-! ### Some occurrences, or all -/

/-- A text with `k` of the occurrences of `old` replaced by `new`. -/
inductive PartlyReplaced (old new : List Char) : Nat → List Char → List Char → Prop
  /-- The text ends. -/
  | nil : PartlyReplaced old new 0 [] []
  /-- A character is kept. -/
  | keep {k : Nat} {text text' : List Char} (c : Char)
      (later : PartlyReplaced old new k text text') :
      PartlyReplaced old new k (c :: text) (c :: text')
  /-- An occurrence is replaced. -/
  | replace {k : Nat} {text text' : List Char} (later : PartlyReplaced old new k text text') :
      PartlyReplaced old new (k + 1) (old ++ text) (new ++ text')

/-- Replacing all occurrences replaces as many as there are. -/
theorem partlyReplaced_replaceAll (free : sign ∉ name) (new text : List Char) :
    PartlyReplaced (sign :: name) new (occurrences (sign :: name) text) text
      (replaceAll (sign :: name) new text) := by
  have filled : sign :: name ≠ [] := List.cons_ne_nil _ _
  induction text using replaced_induction (sign :: name) filled with
  | nil => exact .nil
  | found rest ih =>
      rw [occurrences_append_self free, replaceAll_append_self filled]
      exact .replace ih
  | other c rest absent ih =>
      rw [occurrences_cons_of_not_begins absent, replaceAll_cons absent]
      exact .keep c ih

namespace PartlyReplaced

/-- A text in front is left as it is. -/
theorem append (front : List Char) (later : PartlyReplaced old new k text text') :
    PartlyReplaced old new k (front ++ text) (front ++ text') := by
  induction front with
  | nil => exact later
  | cons c front ih => exact .keep c ih

/-- No more occurrences are replaced than there are. -/
theorem le_occurrences (free : sign ∉ name)
    (some_replaced : PartlyReplaced (sign :: name) new k text text') :
    k ≤ occurrences (sign :: name) text := by
  induction some_replaced with
  | nil => exact Nat.zero_le _
  | keep c later ih => exact ih.trans (occurrences_le_cons _ c _)
  | replace later ih => exact occurrences_append_self free ▸ Nat.succ_le_succ ih

/-- If as many are replaced as there are, then all are. -/
theorem eq_replaceAll (free : sign ∉ name)
    (some_replaced : PartlyReplaced (sign :: name) new k text text')
    (all : k = occurrences (sign :: name) text) : text' = replaceAll (sign :: name) new text := by
  induction some_replaced with
  | nil => rfl
  | @keep k text text' c later ih =>
      -- an occurrence that begins here and is kept would be one too many
      have absent : ¬ sign :: name <+: c :: text := by
        intro here
        have fewer := later.le_occurrences free
        rw [all, occurrences_cons_of_begins here] at fewer
        omega
      rw [occurrences_cons_of_not_begins absent] at all
      rw [replaceAll_cons absent, ih all]
  | replace later ih =>
      rw [occurrences_append_self free] at all
      rw [replaceAll_append_self (List.cons_ne_nil _ _), ih (Nat.succ.inj all)]

/-- An occurrence that is replaced by itself makes no difference. -/
theorem eq_self (some_replaced : PartlyReplaced old old k text text') : text' = text := by
  induction some_replaced with
  | nil => rfl
  | keep c later ih => rw [ih]
  | replace later ih => rw [ih]

/-- Nothing is replaced before the first sign. -/
theorem takeWhile_eq (some_replaced : PartlyReplaced (sign :: name) (sign :: name') k text text') :
    text.takeWhile (· != sign) = text'.takeWhile (· != sign) := by
  induction some_replaced with
  | nil => rfl
  | keep c later ih => simp [List.takeWhile_cons, ih]
  | replace later ih => simp

/-- If all are replaced, then as many as there are. -/
theorem eq_occurrences (free : sign ∉ name) (free' : sign ∉ name') (other : name ≠ name')
    (some_replaced : PartlyReplaced (sign :: name) (sign :: name') k text text')
    (same : text' = replaceAll (sign :: name) (sign :: name') text) :
    k = occurrences (sign :: name) text := by
  induction some_replaced with
  | nil => rfl
  | @keep k text text' c later ih =>
      by_cases here : sign :: name <+: c :: text
      · -- the name that was kept stands where there should be the new one
        obtain ⟨rest, whole⟩ := here
        rw [List.cons_append, List.cons.injEq] at whole
        obtain ⟨rfl, rfl⟩ := whole
        rw [← List.cons_append, replaceAll_append_self (List.cons_ne_nil _ _), List.cons_append,
          List.cons.injEq] at same
        have kept := later.takeWhile_eq
        have renamed := (partlyReplaced_replaceAll free (sign :: name') rest).takeWhile_eq
        have before : ∀ {name : List Char}, sign ∉ name → ∀ c ∈ name, (c != sign) = true := by
          rintro name free c member
          simpa using ne_of_mem_of_not_mem member free
        rw [same.2, List.takeWhile_append_of_pos (before free),
          List.takeWhile_append_of_pos (before free'), ← renamed] at kept
        exact absurd (List.append_cancel_right kept) other
      · rw [replaceAll_cons here, List.cons.injEq] at same
        rw [occurrences_cons_of_not_begins here, ih same.2]
  | replace later ih =>
      rw [replaceAll_append_self (List.cons_ne_nil _ _)] at same
      rw [occurrences_append_self free, ih (List.append_cancel_left same)]

end PartlyReplaced

end TaggedMemos.Text

namespace TaggedMemos

open Text

variable {old new : String}

/-! ### Renaming leaves -/

/-- Renaming leaves replaces one occurrence for each leaf that is the marker, if no other leaf is a
tag on the old path. -/
theorem partlyReplaced_leaves (canonical : TagPath.IsCanonical old) (new : String)
    (build : Leaf → List Char) (leaves : List Leaf)
    (only : ∀ raw, .tag raw ∈ leaves → TagPath.normalize raw = old →
      raw = TagPath.withoutSlash old) :
    PartlyReplaced ('#' :: (TagPath.withoutSlash old).toList)
      ('#' :: (TagPath.withoutSlash new).toList)
      (leaves.count (.tag (TagPath.withoutSlash old)))
      (leaves.flatMap (Leaf.writtenBy build))
      (leaves.flatMap ((TagEdit.rename old new).writtenLeaf build)) := by
  induction leaves with
  | nil => exact .nil
  | cons leaf leaves ih =>
      have later := ih fun raw member => only raw (List.mem_cons_of_mem _ member)
      rw [List.flatMap_cons, List.flatMap_cons]
      by_cases marker : leaf = .tag (TagPath.withoutSlash old)
      · have put : (TagEdit.rename old new).writtenLeaf build leaf =
            '#' :: (TagPath.withoutSlash new).toList := by
          rw [marker, TagEdit.writtenLeaf, TagEdit.path, if_pos canonical.normalize_withoutSlash]
          rfl
        rw [put, marker, List.count_cons_self]
        exact .replace later
      · have kept : (TagEdit.rename old new).writtenLeaf build leaf = leaf.writtenBy build := by
          cases leaf with
          | tag raw =>
              have other : TagPath.normalize raw ≠ old := fun on =>
                marker (congrArg Leaf.tag (only raw List.mem_cons_self on))
              rw [TagEdit.writtenLeaf, TagEdit.path, if_neg other]
              rfl
          | _ => rfl
        rw [kept, List.count_cons_of_ne marker]
        exact later.append _

/-- **When both ways of renaming agree.** Let no tag leaf on the old path be spelled otherwise than
in the marker. Then renaming the leaves gives the same text as renaming all occurrences if the
marker occurs as often in the text as there are such leaves. If it occurs elsewhere, then it does
not, unless the new path is the old one. It does not matter how leaves without a text are
written. -/
theorem renamings_agree_iff {typed typed' : String} (accepted : TagPath.validate typed = .ok old)
    (accepted' : TagPath.validate typed' = .ok new) (build : Leaf → List Char) (nodes : Forest)
    (only : ∀ raw, .tag raw ∈ nodes.leaves → TagPath.normalize raw = old →
      raw = TagPath.withoutSlash old) :
    Forest.toMarkdownBy build (Forest.renameTag old new nodes).result =
        Tag.replaceMarker (nodes.toMarkdownBy build) old new ↔
      occurrences (TagPath.marker old).toList (nodes.toMarkdownBy build).toList =
        nodes.leaves.count (.tag (TagPath.withoutSlash old)) ∨ old = new := by
  have canonical := (TagPath.isCanonical_of_validate accepted).1
  have canonical' := (TagPath.isCanonical_of_validate accepted').1
  have free := Tag.not_mem_withoutSlash accepted
  have free' := Tag.not_mem_withoutSlash accepted'
  have leaves := partlyReplaced_leaves canonical new build nodes.leaves only
  have edited := (TagEdit.rename old new).toMarkdownBy_forest build nodes
  have text : (nodes.toMarkdownBy build).toList =
      nodes.leaves.flatMap (Leaf.writtenBy build) := by
    rw [Forest.toMarkdownBy, String.toList_ofList]
  have agree : Forest.toMarkdownBy build (Forest.renameTag old new nodes).result =
        Tag.replaceMarker (nodes.toMarkdownBy build) old new ↔
      nodes.leaves.flatMap ((TagEdit.rename old new).writtenLeaf build) =
        replaceAll ('#' :: (TagPath.withoutSlash old).toList)
          ('#' :: (TagPath.withoutSlash new).toList)
          (nodes.leaves.flatMap (Leaf.writtenBy build)) := by
    rw [← String.toList_inj, Tag.toList_replaceMarker, text, ← edited]
    rfl
  rw [agree, Tag.toList_marker, text]
  constructor
  · intro same
    by_cases other : old = new
    · exact .inr other
    · have names : (TagPath.withoutSlash old).toList ≠ (TagPath.withoutSlash new).toList := by
        intro same
        refine other (String.toList_inj.mp ?_)
        rw [canonical.toList_eq, canonical'.toList_eq, same]
      exact .inl (leaves.eq_occurrences free free' names same).symm
  · rintro (all | rfl)
    · exact leaves.eq_replaceAll free all.symm
    · exact leaves.eq_self.trans (partlyReplaced_replaceAll free _ _).eq_self.symm

/-- The marker stands in a quote and in strong emphasis; a code span has the beginning of it. In a
code span of its own it is replaced in the raw text alone. -/
theorem renamings_agree_iff_nested :
    let nodes : Forest := [.container .quote [.leaf (.markup "> "), .leaf (.tag "a/b"),
      .container .bold [.leaf (.text " x"), .leaf (.code "#a" "`#a`"), .leaf (.tag "a/b")]]]
    let longer : Forest := nodes ++ [.leaf (.code "#a/b" "`#a/b`")]
    TagPath.validate "a/b/" = .ok "/a/b" ∧ TagPath.validate "a" = .ok "/a" ∧
      Forest.toMarkdown (Forest.renameTag "/a/b" "/a" nodes).result =
        Tag.replaceMarker nodes.toMarkdown "/a/b" "/a" ∧
      Forest.toMarkdown (Forest.renameTag "/a/b" "/a" longer).result ≠
        Tag.replaceMarker longer.toMarkdown "/a/b" "/a" := by
  intro nodes longer
  have accepted : TagPath.validate "a/b/" = .ok "/a/b" := by decide +kernel
  have accepted' : TagPath.validate "a" = .ok "/a" := by decide +kernel
  have name : TagPath.withoutSlash "/a/b" = "a/b" := by decide +kernel
  have only : ∀ raw, .tag raw ∈ longer.leaves → raw = TagPath.withoutSlash "/a/b" := by
    have leaves : longer.leaves = [.markup "> ", .tag "a/b", .text " x", .code "#a" "`#a`",
      .tag "a/b", .code "#a/b" "`#a/b`"] := rfl
    simp [leaves, name]
  have fewer : ∀ raw, .tag raw ∈ nodes.leaves → raw = TagPath.withoutSlash "/a/b" := by
    intro raw member
    refine only raw ?_
    rw [Forest.leaves_append]
    exact List.mem_append_left _ member
  have agree := renamings_agree_iff accepted accepted' Leaf.built nodes
    fun raw member _ => fewer raw member
  have differ := renamings_agree_iff accepted accepted' Leaf.built longer
    fun raw member _ => only raw member
  refine ⟨accepted, accepted', agree.mpr (.inl (by decide +kernel)), fun same => ?_⟩
  exact absurd (differ.mp same) (by decide +kernel)

end TaggedMemos
