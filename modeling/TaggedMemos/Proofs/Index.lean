import Mathlib.Data.String.Basic
import TaggedMemos.Proofs.FirstOccurrence
import TaggedMemos.Tag.Hierarchy

/-!
# The Tag Index

An index has one entry for each path that it is about, in ascending order. Recording a tag adds the
memo to the entry of its path and leaves all other entries alone. The hierarchy changes the links
and the total in each entry, and nothing else.

What is found under a path are the memos that carry it, each at its first place, whether their tags
are spelled with a slash in front or without. This is told most simply where the memos have distinct
identifiers and their tags begin with a slash.

## Main results

* `mem_keys_ofMemos`: the paths of an index are the tags of the memos it is made from.
* `sorted_ofMemos`: they are in ascending order.
* `find?_ofMemos`: what is found under a path.
* `carriers_of_distinct`: what this is for distinct memos.
* `find?_withHierarchy`: what the hierarchy adds to it.
-/

namespace TaggedMemos

namespace TagNode

variable {path : String} {ids : List MemoId} {id : MemoId} {node : TagNode}

/-- The entry of a path that some memos carry. -/
def carriedBy (path : String) (ids : List MemoId) : TagNode :=
  { empty path with memoIds := ids, directCount := ids.length, totalCount := ids.length }

/-- A memo is added to those that carry a path, unless it is one of them. -/
theorem addMemo_carriedBy (path : String) (ids : List MemoId) (id : MemoId) :
    (carriedBy path ids.eraseDups).addMemo id = carriedBy path (ids ++ [id]).eraseDups := by
  rw [eraseDups_concat]
  by_cases known : id ∈ ids
  · simp [addMemo, carriedBy, known]
  · simp [addMemo, carriedBy, known]

/-- A memo is recorded once. -/
theorem addMemo_addMemo (node : TagNode) (id : MemoId) :
    (node.addMemo id).addMemo id = node.addMemo id := by
  by_cases known : id ∈ node.memoIds
  · simp [addMemo, known]
  · simp [addMemo, known]

end TagNode

namespace TagIndex

variable {index : TagIndex} {path tag : String} {tags : List String} {node : TagNode} {id : MemoId}

/-- Nothing is found under a path exactly if the index lacks it. -/
theorem find?_eq_none : index.find? path = none ↔ path ∉ index.keys := by
  induction index with
  | nil => simp [find?, keys]
  | cons entry rest ih =>
      obtain ⟨key, node⟩ := entry
      by_cases same : key = path
      · simp [find?, keys, same]
      · simp only [find?, same, if_false, ih, keys, List.map_cons, List.mem_cons, not_or]
        exact ⟨fun h => ⟨Ne.symm same, h⟩, fun h => h.2⟩

/-- An insertion adds its own path to the keys. -/
theorem mem_keys_insert : tag ∈ (index.insert path node).keys ↔ tag = path ∨ tag ∈ index.keys := by
  induction index with
  | nil => simp [insert, keys]
  | cons entry rest ih =>
      obtain ⟨key, other⟩ := entry
      rw [insert]
      split
      · next same => simp [keys, same]
      · split
        · simp [keys]
        · simp only [keys, List.map_cons, List.mem_cons] at ih ⊢
          rw [ih]
          exact or_left_comm

/-- Recording a tag adds its path, unless the tag is empty. -/
theorem mem_keys_record :
    path ∈ (index.record id tag).keys ↔
      path ∈ index.keys ∨ (tag ≠ "" ∧ path = TagPath.withSlash tag) := by
  rw [record]
  by_cases empty : tag.isEmpty = true
  · have none : tag = "" := by simpa using empty
    simp [none]
  · have some : tag ≠ "" := by simpa using empty
    simp only [empty]
    rw [if_neg (by simp), mem_keys_insert]
    simp only [some, ne_eq, not_false_eq_true, true_and]
    exact or_comm

/-- The keys after tags were recorded: the ones before, and the tags that are not empty, each with a
slash in front. -/
theorem mem_keys_foldl_record :
    path ∈ (tags.foldl (record id) index).keys ↔
      path ∈ index.keys ∨ ∃ tag ∈ tags, tag ≠ "" ∧ path = TagPath.withSlash tag := by
  induction tags generalizing index with
  | nil => simp
  | cons first tags ih =>
      rw [List.foldl_cons, ih, mem_keys_record, or_assoc]
      simp only [List.mem_cons, exists_eq_or_imp]

/-- **The paths of an index** are the tags of the memos, each with a slash in front. -/
theorem mem_keys_ofMemos {memos : List (MemoId × List String)} :
    path ∈ (ofMemos memos).keys ↔
      ∃ memo ∈ memos, ∃ tag ∈ memo.2, tag ≠ "" ∧ path = TagPath.withSlash tag := by
  have from_index : ∀ index : TagIndex,
      path ∈ (memos.foldl (fun index memo => memo.2.foldl (record memo.1) index) index).keys ↔
        path ∈ index.keys ∨
          ∃ memo ∈ memos, ∃ tag ∈ memo.2, tag ≠ "" ∧ path = TagPath.withSlash tag := by
    induction memos with
    | nil => simp
    | cons memo memos ih =>
        intro index
        rw [List.foldl_cons, ih, mem_keys_foldl_record, or_assoc]
        simp only [List.mem_cons, exists_eq_or_imp]
  rw [ofMemos, from_index]
  simp [keys]

/-- The hierarchy keeps all paths. -/
theorem keys_withHierarchy (index : TagIndex) : index.withHierarchy.keys = index.keys := by
  simp [withHierarchy, withLinks, keys, List.map_map, Function.comp_def]

/-- What recording one tag preserves holds of the index of all memos. -/
theorem ofMemos_induction {P : TagIndex → Prop} (memos : List (MemoId × List String))
    (empty : P []) (step : ∀ index id tag, P index → P (index.record id tag)) :
    P (ofMemos memos) :=
  List.foldlRecOn memos _ empty fun _ holds memo _ =>
    List.foldlRecOn memo.2 _ holds fun index holds tag _ => step index memo.1 tag holds

/-! ### Carriers -/

/-- The paths that the tags of a memo stand for: each tag with a slash in front, the empty tag left
out. -/
def pathsOfTags (tags : List String) : List String :=
  (tags.filter (· ≠ "")).map TagPath.withSlash

/-- The paths of tags are the tags that are not empty, each with a slash in front. -/
theorem mem_pathsOfTags :
    path ∈ pathsOfTags tags ↔ ∃ tag ∈ tags, tag ≠ "" ∧ path = TagPath.withSlash tag := by
  rw [pathsOfTags, List.mem_map]
  simp only [List.mem_filter, decide_eq_true_iff, and_assoc, eq_comm (b := path)]

/-- One tag more gives its own path, if it is not empty. -/
theorem mem_pathsOfTags_cons :
    path ∈ pathsOfTags (tag :: tags) ↔
      (tag ≠ "" ∧ path = TagPath.withSlash tag) ∨ path ∈ pathsOfTags tags := by
  simp only [mem_pathsOfTags, List.mem_cons, exists_eq_or_imp]

/-- Tags with a slash in front stand for themselves. -/
theorem pathsOfTags_of_slashed (slashed : ∀ tag ∈ tags, tag.toList.head? = some '/') :
    pathsOfTags tags = tags := by
  have filled : tags.filter (· ≠ "") = tags := by
    rw [List.filter_eq_self]
    intro tag member
    refine decide_eq_true fun empty => ?_
    simpa [empty] using slashed tag member
  rw [pathsOfTags, filled]
  refine (List.map_congr_left fun tag member => ?_).trans (List.map_id tags)
  rw [TagPath.withSlash, if_pos (slashed tag member), id]

/-- The memos with a tag that stands for a path, in the order in which they come first. -/
def carriers (memos : List (MemoId × List String)) (path : String) : List MemoId :=
  ((memos.filter fun memo => path ∈ pathsOfTags memo.2).map (·.1)).eraseDups

/-! ### Order -/

/-- The paths of an index are in ascending order. -/
def Sorted (index : TagIndex) : Prop :=
  index.keys.Pairwise (· < ·)

/-- An insertion keeps the order of the keys. -/
theorem Sorted.insert (sorted : index.Sorted) (path : String) (node : TagNode) :
    (index.insert path node).Sorted := by
  induction index with
  | nil => simp [Sorted, TagIndex.insert, keys]
  | cons entry rest ih =>
      obtain ⟨key, other⟩ := entry
      obtain ⟨before, sorted⟩ := List.pairwise_cons.mp sorted
      rw [TagIndex.insert]
      split
      · next same => exact .cons (same ▸ before) sorted
      · next other' =>
          split
          · next less =>
              refine .cons (fun key' member => ?_) (.cons before sorted)
              rcases List.mem_cons.mp member with rfl | member
              · exact less
              · exact less.trans (before key' member)
          · next notLess =>
              refine .cons (fun key' member => ?_) (ih sorted)
              rcases mem_keys_insert.mp member with rfl | member
              · exact lt_of_le_of_ne (not_lt.mp notLess) (Ne.symm other')
              · exact before key' member

/-- The index of memos has its keys in order. -/
theorem sorted_ofMemos (memos : List (MemoId × List String)) : (ofMemos memos).Sorted := by
  refine ofMemos_induction memos .nil fun _ _ _ sorted => ?_
  rw [record]
  split
  · exact sorted
  · exact sorted.insert _ _

/-- The part of an index below a prefix has its keys in order. -/
theorem Sorted.startingWith (sorted : index.Sorted) (start : String) :
    (index.startingWith start).Sorted := by
  rw [TagIndex.startingWith]
  split
  · exact sorted
  · exact sorted.sublist (List.filter_sublist.map _)

/-- An entry is what is found under its path. -/
theorem Sorted.mem_iff (sorted : index.Sorted) :
    (path, node) ∈ index ↔ index.find? path = some node := by
  induction index with
  | nil => simp [find?]
  | cons entry rest ih =>
      obtain ⟨key, other⟩ := entry
      obtain ⟨before, sorted⟩ := List.pairwise_cons.mp sorted
      by_cases same : key = path
      · subst same
        have later : (key, node) ∉ rest := fun member =>
          absurd (before key (List.mem_map_of_mem member)) (lt_irrefl key)
        simp [find?, later, eq_comm]
      · simp [find?, same, Ne.symm same, ih sorted]

/-! ### Entries -/

/-- What is found under a path is an entry. -/
theorem mem_of_find? (found : index.find? path = some node) : (path, node) ∈ index := by
  induction index with
  | nil => cases found
  | cons entry rest ih =>
      obtain ⟨key, other⟩ := entry
      by_cases same : key = path
      · simp only [find?, same, if_true, Option.some.injEq] at found
        simp [same, found]
      · simp only [find?, same, if_false] at found
        exact List.mem_cons_of_mem _ (ih found)

/-- The keys are the paths for which a node is found. -/
theorem mem_keys_iff : path ∈ index.keys ↔ ∃ node, index.find? path = some node := by
  rw [← Option.ne_none_iff_exists', ne_eq, find?_eq_none, Classical.not_not]

/-- Every entry is about the path that it stands under. -/
def Keyed (index : TagIndex) : Prop :=
  ∀ entry ∈ index, entry.2.path = entry.1 ∧ entry.2.segments = TagPath.segments entry.1

/-- An entry after an insertion is the one inserted, or was there before. -/
theorem mem_insert {entry : String × TagNode} (member : entry ∈ index.insert path node) :
    entry = (path, node) ∨ entry ∈ index := by
  induction index with
  | nil => exact .inl (List.mem_singleton.mp member)
  | cons first rest ih =>
      obtain ⟨key, other⟩ := first
      rw [insert] at member
      split at member
      · rcases List.mem_cons.mp member with new | old
        · exact .inl new
        · exact .inr (List.mem_cons_of_mem _ old)
      · split at member
        · exact (List.mem_cons.mp member)
        · rcases List.mem_cons.mp member with first | member
          · exact .inr (first ▸ List.mem_cons_self)
          · exact (ih member).imp_right (List.mem_cons_of_mem _)

/-- Recording a tag leaves every node under its own path. -/
theorem Keyed.record (keyed : index.Keyed) (id : MemoId) (tag : String) :
    (index.record id tag).Keyed := by
  rw [TagIndex.record]
  split
  · exact keyed
  · have about : ∀ node : TagNode, (node.addMemo id).path = node.path ∧
        (node.addMemo id).segments = node.segments := by
      intro node
      rw [TagNode.addMemo]
      split
      · exact ⟨rfl, rfl⟩
      · exact ⟨rfl, rfl⟩
    intro entry member
    rcases mem_insert member with rfl | old
    · simp only [about]
      cases found : index.find? (TagPath.withSlash tag) with
      | none => exact ⟨rfl, rfl⟩
      | some node => exact keyed _ (mem_of_find? found)
    · exact keyed entry old

/-- Every node in the index of memos stands under its own path. -/
theorem keyed_ofMemos (memos : List (MemoId × List String)) : (ofMemos memos).Keyed :=
  ofMemos_induction memos (by simp [Keyed]) fun _ id tag keyed => keyed.record id tag

/-- Every node in a part of an index stands under its own path. -/
theorem Keyed.startingWith (keyed : index.Keyed) (start : String) :
    (index.startingWith start).Keyed := by
  rw [TagIndex.startingWith]
  split
  · exact keyed
  · exact fun entry member => keyed entry (List.mem_filter.mp member).1

/-! ### What is found -/

/-- What is found after an insertion: its node under its path, and everything else as before. -/
theorem find?_insert {path' : String} :
    (index.insert path node).find? path' =
      if path = path' then some node else index.find? path' := by
  induction index with
  | nil => simp [insert, find?]
  | cons entry rest ih =>
      obtain ⟨key, other⟩ := entry
      rw [insert]
      split
      · next same =>
          subst same
          by_cases here : path = path' <;> simp [find?, here]
      · split
        · simp [find?]
        · next distinct _ =>
            by_cases here : key = path'
            · subst here
              simp [find?, distinct]
            · simp [find?, here, ih]

/-- Recording a tag changes what is found under its path. -/
theorem find?_record :
    (index.record id tag).find? path =
      if tag ≠ "" ∧ path = TagPath.withSlash tag then
        some (((index.find? path).getD (.empty path)).addMemo id)
      else index.find? path := by
  rw [record]
  by_cases empty : tag = ""
  · simp [empty]
  · rw [if_neg (by simpa using empty)]
    simp only [find?_insert]
    by_cases same : path = TagPath.withSlash tag
    · simp [same, empty]
    · simp [same, Ne.symm same]

/-- Recording the tags of a memo changes what is found under the paths that they stand for. -/
theorem find?_foldl_record :
    (tags.foldl (record id) index).find? path =
      if path ∈ pathsOfTags tags then some (((index.find? path).getD (.empty path)).addMemo id)
      else index.find? path := by
  induction tags generalizing index with
  | nil => rfl
  | cons tag tags ih =>
      rw [List.foldl_cons, ih, find?_record]
      simp only [mem_pathsOfTags_cons]
      by_cases here : tag ≠ "" ∧ path = TagPath.withSlash tag
      · have either : (tag ≠ "" ∧ path = TagPath.withSlash tag) ∨ path ∈ pathsOfTags tags :=
          .inl here
        simp only [if_pos here, if_pos either, Option.getD_some, TagNode.addMemo_addMemo, ite_self]
      · simp only [if_neg here, or_iff_right here]

/-- What is found under a path that some memos carry, if there are any. -/
def entry (path : String) (ids : List MemoId) : Option TagNode :=
  if ids = [] then none else some (.carriedBy path ids)

/-- An entry for no memos at all is the empty node. -/
theorem getD_entry (path : String) (ids : List MemoId) :
    (entry path ids).getD (.empty path) = .carriedBy path ids := by
  cases ids <;> rfl

/-- **What is found in an index**: the memos that carry the path, each at its first place. -/
theorem find?_ofMemos (memos : List (MemoId × List String)) (path : String) :
    (ofMemos memos).find? path = entry path (carriers memos path) := by
  -- The induction is on the memos left, with those recorded before found in the index.
  have from_index : ∀ (index : TagIndex) (done : List MemoId),
      index.find? path = entry path done.eraseDups →
      (memos.foldl (fun index memo => memo.2.foldl (record memo.1) index) index).find? path =
        entry path
          (done ++ (memos.filter fun memo => path ∈ pathsOfTags memo.2).map (·.1)).eraseDups := by
    induction memos with
    | nil => exact fun index done found => by simpa using found
    | cons memo memos ih =>
        intro index done found
        by_cases on : path ∈ pathsOfTags memo.2
        · have filled : (done ++ [memo.1]).eraseDups ≠ [] :=
            List.ne_nil_of_mem (List.mem_eraseDups.mpr
              (List.mem_append_right done (List.mem_singleton_self memo.1)))
          have carried : (memo.2.foldl (record memo.1) index).find? path =
              entry path (done ++ [memo.1]).eraseDups := by
            rw [find?_foldl_record, if_pos on, found, getD_entry, TagNode.addMemo_carriedBy, entry,
              if_neg filled]
          rw [List.foldl_cons, ih _ _ carried]
          simp [on]
        · have carried : (memo.2.foldl (record memo.1) index).find? path =
              entry path done.eraseDups := by
            rw [find?_foldl_record, if_neg on, found]
          rw [List.foldl_cons, ih _ _ carried]
          simp [on]
  exact from_index [] [] rfl

/-- Of distinct memos whose tags begin with a slash, those that carry a path are those that have it
for a tag. -/
theorem carriers_of_distinct {memos : List (MemoId × List String)}
    (distinct : (memos.map (·.1)).Nodup)
    (slashed : ∀ memo ∈ memos, ∀ tag ∈ memo.2, tag.toList.head? = some '/') (path : String) :
    carriers memos path = (memos.filter (·.2.contains path)).map (·.1) := by
  have same : (memos.filter fun memo => path ∈ pathsOfTags memo.2) =
      memos.filter (·.2.contains path) := by
    refine List.filter_congr fun memo member => ?_
    rw [pathsOfTags_of_slashed (slashed memo member), List.contains_eq_mem]
  rw [carriers, same]
  exact eraseDups_eq_self (distinct.sublist (List.filter_sublist.map _))

/-! ### The hierarchy -/

/-- A change of the entries alone changes what is found. -/
theorem find?_mapEntries (index : TagIndex) (change : String → TagNode → TagNode) (path : String) :
    find? (index.map fun entry => (entry.1, change entry.1 entry.2)) path =
      (index.find? path).map (change path) := by
  induction index with
  | nil => rfl
  | cons entry rest ih =>
      by_cases same : entry.1 = path
      · subst same
        simp [find?]
      · simpa [find?, same] using ih

/-- Links between the nodes leave the keys as they are. -/
theorem keys_withLinks (index : TagIndex) : index.withLinks.keys = index.keys := by
  simp [withLinks, keys, Function.comp_def]

/-- Every node gets the links to its children and its parent, and keeps the rest. -/
theorem find?_withLinks (index : TagIndex) (path : String) :
    index.withLinks.find? path = (index.find? path).map fun node =>
      { node with childPaths := index.childrenOf path, parentPath := index.parentOf path } :=
  find?_mapEntries index (fun path node =>
    { node with childPaths := index.childrenOf path, parentPath := index.parentOf path }) path

/-- The hierarchy sets the links and the total of an entry. -/
theorem find?_withHierarchy (index : TagIndex) (path : String) :
    index.withHierarchy.find? path = (index.find? path).map fun node =>
      { node with
        childPaths := index.childrenOf path
        parentPath := index.parentOf path
        totalCount := index.withLinks.totalCount path } := by
  have totals := find?_mapEntries index.withLinks
    (fun path node => { node with totalCount := index.withLinks.totalCount path }) path
  refine totals.trans ?_
  rw [find?_withLinks, Option.map_map]
  rfl

end TagIndex

end TaggedMemos
