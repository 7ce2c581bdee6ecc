import TaggedMemos.Proofs.Index
import TaggedMemos.Proofs.Path
import TaggedMemos.Proofs.PathOrder

/-!
# Links of the Hierarchy

The children of an entry are searched for in one stretch of the index: from the place on that the
path with a slash after it has in the order, up to the first entry that does not begin so. Siblings
such as `/work-x` and `/workshop` stand on either side of that stretch, because the paths that begin
with a text stand together. The parent of an entry is found in another way, by cutting its path at
the last slash. Both say the same about two paths, unless one of them is empty or ends in a slash.

Links depend on nothing but the paths of an index, so it makes no difference which links its entries
had before.

## Main results

* `childrenOf_eq_filter`: the search misses no child, and finds nothing else.
* `withHierarchy_relinked`: links and totals that were there before do not matter.
* `links_are_exact`: what the hierarchy makes of an index.
-/

namespace TaggedMemos

namespace TagIndex

variable {index : TagIndex} {path other above : String} {node : TagNode}

/-! ### Children and parents -/

/-- **The children of a path** are found in one stretch of an index. -/
theorem childrenOf_eq_filter (sorted : index.Sorted) (path : String) :
    index.childrenOf path = index.keys.filter (TagPath.isDirectChild path) := by
  simp only [childrenOf]
  rw [takeWhile_dropWhile_eq_filter sorted, List.filter_filter]
  refine List.filter_congr fun other _ => ?_
  rw [Bool.eq_iff_iff, Bool.and_eq_true, and_iff_left_iff_imp, List.isPrefixOf_iff_prefix]
  intro child
  obtain ⟨last, whole, -⟩ := TagPath.isDirectChild_iff.mp child
  exact ⟨last, by simp [whole]⟩

/-- The children of a path are the direct children among the keys. -/
theorem mem_childrenOf (sorted : index.Sorted) :
    other ∈ index.childrenOf path ↔
      other ∈ index.keys ∧ TagPath.isDirectChild path other = true := by
  rw [childrenOf_eq_filter sorted, List.mem_filter]

/-- The parent of a path is the one that its segments give, if it is among the keys. -/
theorem parentOf_eq_some :
    index.parentOf path = some above ↔ TagPath.parent? path = some above ∧ above ∈ index.keys := by
  rw [parentOf, Option.filter_eq_some_iff, Option.isSome_iff_ne_none, ne_eq, find?_eq_none,
    Classical.not_not]

/-- Children and parents are each other's counterparts. -/
theorem mem_childrenOf_iff_parentOf (sorted : index.Sorted)
    (trimmed : ∀ path ∈ index.keys, TagPath.IsTrimmed path) (known : path ∈ index.keys)
    (known' : other ∈ index.keys) :
    other ∈ index.childrenOf path ↔ index.parentOf other = some path := by
  rw [mem_childrenOf sorted, parentOf_eq_some,
    TagPath.isDirectChild_iff_parent? (trimmed path known).1 (trimmed other known').2]
  exact ⟨fun child => ⟨child.2, known⟩, fun parent => ⟨known', parent.1⟩⟩

/-! ### Links that were there before -/

/-- An index with any links and totals in its entries. -/
def relinked (index : TagIndex) (children : String → List String) (parent : String → Option String)
    (total : String → Nat) : TagIndex :=
  index.map fun (path, node) => (path,
    { node with childPaths := children path, parentPath := parent path, totalCount := total path })

variable {children : String → List String} {parent : String → Option String} {total : String → Nat}

/-- New links leave the paths of an index as they are. -/
theorem keys_relinked : (index.relinked children parent total).keys = index.keys := by
  simp [relinked, keys, Function.comp_def]

/-- A node with new links has everything else from before. -/
theorem find?_relinked (path : String) :
    (index.relinked children parent total).find? path = (index.find? path).map fun node =>
      { node with
        childPaths := children path
        parentPath := parent path
        totalCount := total path } :=
  find?_mapEntries index (fun path node => { node with
    childPaths := children path
    parentPath := parent path
    totalCount := total path }) path

/-- Links that are set anew do not depend on the ones before. -/
theorem relinked_relinked (children' : String → List String) (parent' : String → Option String)
    (total' : String → Nat) :
    (index.relinked children parent total).relinked children' parent' total' =
      index.relinked children' parent' total' := by
  simp [relinked, Function.comp_def]

/-- Only the counts and the child links of entries make a difference to a search, and only where it
can get to. -/
theorem countFrom_congr {index' : TagIndex} (within : String → Prop)
    (same : ∀ path, within path →
      (index.find? path).map (fun node => (node.directCount, node.childPaths)) =
        (index'.find? path).map fun node => (node.directCount, node.childPaths))
    (closed : ∀ path node, within path → index.find? path = some node →
      ∀ child ∈ node.childPaths, within child)
    (visited pending : List String) (start : ∀ path ∈ pending, within path) :
    index.countFrom visited pending = index'.countFrom visited pending := by
  fun_induction countFrom index visited pending with
  | case1 visited => rw [countFrom]
  | case2 visited path rest seen ih =>
      rw [countFrom, dif_pos seen, ih fun path later => start path (List.mem_cons_of_mem _ later)]
  | case3 visited path rest new missing ih =>
      obtain ⟨here, later⟩ := List.forall_mem_cons.mp start
      have missing' : index'.find? path = none := by simpa [missing] using (same path here).symm
      rw [countFrom, dif_neg new, ih later]
      split
      · rfl
      · next found => cases missing'.symm.trans found
  | case4 visited path rest new node found ih =>
      obtain ⟨here, later⟩ := List.forall_mem_cons.mp start
      have found' := same path here
      rw [found, Option.map_some, eq_comm, Option.map_eq_some_iff] at found'
      obtain ⟨node', found', alike⟩ := found'
      obtain ⟨count, links⟩ := Prod.mk.inj alike
      rw [countFrom, dif_neg new,
        ih (List.forall_mem_append.mpr ⟨closed path node here found, later⟩)]
      split
      · next missing => cases missing.symm.trans found'
      · next node'' found'' =>
          obtain rfl := Option.some.inj (found'.symm.trans found'')
          rw [count, links]

/-- The hierarchy sets the links and totals of the entries, and nothing else. -/
theorem withHierarchy_eq_relinked (index : TagIndex) :
    index.withHierarchy =
      index.relinked index.childrenOf index.parentOf index.withLinks.totalCount := by
  simp [withHierarchy, withLinks, relinked, Function.comp_def]

/-- **Links and totals that were there before do not matter.** -/
theorem withHierarchy_relinked (index : TagIndex) (children : String → List String)
    (parent : String → Option String) (total : String → Nat) :
    (index.relinked children parent total).withHierarchy = index.withHierarchy := by
  have children_same : (index.relinked children parent total).childrenOf = index.childrenOf := by
    funext path
    rw [childrenOf, keys_relinked, childrenOf]
  have known_same : ∀ path,
      ((index.relinked children parent total).find? path).isSome = (index.find? path).isSome := by
    intro path
    rw [find?_relinked, Option.isSome_map]
  have parent_same : (index.relinked children parent total).parentOf = index.parentOf := by
    funext path
    rw [parentOf, parentOf]
    exact congrArg (fun keep => (TagPath.parent? path).filter keep) (funext known_same)
  have total_same : (index.relinked children parent total).withLinks.totalCount =
      index.withLinks.totalCount := by
    funext path
    refine countFrom_congr (fun _ => True) (fun path _ => ?_) (fun _ _ _ _ _ _ => trivial) [] [path]
      fun _ _ => trivial
    rw [find?_withLinks, find?_withLinks, find?_relinked, Option.map_map, Option.map_map,
      Option.map_map, children_same]
    rfl
  rw [withHierarchy_eq_relinked, withHierarchy_eq_relinked, children_same, parent_same, total_same,
    relinked_relinked]

/-! ### The links of an index -/

/-- **Links are exact.** The hierarchy keeps all entries and gives each of them, as its children,
the entries directly below it in ascending order, and as its parent the path before its last slash,
if that is an entry; one path is a child of another exactly if that one is its parent. Which links
and totals there were before makes no difference, nothing else in an entry changes, and doing all
this again changes nothing at all. -/
theorem links_are_exact (sorted : index.Sorted)
    (trimmed : ∀ path ∈ index.keys, TagPath.IsTrimmed path) :
    index.withHierarchy.keys = index.keys ∧
    (∀ path old, index.find? path = some old → ∃ node,
      index.withHierarchy.find? path = some node ∧
      (∀ other, other ∈ node.childPaths ↔
        other ∈ index.keys ∧ TagPath.isDirectChild path other = true) ∧
      node.childPaths.Pairwise (· < ·) ∧
      (∀ above, node.parentPath = some above ↔
        TagPath.parent? path = some above ∧ above ∈ index.keys) ∧
      node = { old with
        childPaths := node.childPaths
        parentPath := node.parentPath
        totalCount := node.totalCount }) ∧
    (∀ path node other node', index.withHierarchy.find? path = some node →
      index.withHierarchy.find? other = some node' →
      (other ∈ node.childPaths ↔ node'.parentPath = some path)) ∧
    (∀ children parent total,
      (index.relinked children parent total).withHierarchy = index.withHierarchy) ∧
    index.withHierarchy.withHierarchy = index.withHierarchy := by
  refine ⟨keys_withHierarchy index, fun path old found => ?_, fun path node other node' => ?_,
    withHierarchy_relinked index, ?_⟩
  · refine ⟨_, (find?_withHierarchy index path).trans (congrArg _ found),
      fun other => mem_childrenOf sorted, ?_, fun above => parentOf_eq_some, rfl⟩
    rw [childrenOf_eq_filter sorted]
    exact sorted.filter _
  · intro found found'
    rw [find?_withHierarchy, Option.map_eq_some_iff] at found found'
    obtain ⟨old, known, rfl⟩ := found
    obtain ⟨old', known', rfl⟩ := found'
    exact mem_childrenOf_iff_parentOf sorted trimmed (mem_keys_iff.mpr ⟨old, known⟩)
      (mem_keys_iff.mpr ⟨old', known'⟩)
  · rw [withHierarchy_eq_relinked index, withHierarchy_relinked]
    exact withHierarchy_eq_relinked index

/-- An index of four paths, all of whose entries have links to themselves. -/
def selfLinked (first second third fourth : String) : TagIndex :=
  [(first, 1), (second, 2), (third, 3), (fourth, 4)].map fun (path, count) => (path,
    { TagNode.empty path with
      directCount := count
      childPaths := [path]
      parentPath := some path })

/-- The only child of `/work` stands between two siblings of it in the index. -/
theorem links_are_exact_siblings :
    let index := selfLinked "/work" "/work-x" "/work/a" "/workshop"
    index.Sorted ∧ (∀ path ∈ index.keys, TagPath.IsTrimmed path) ∧
      (∃ node, index.withHierarchy.find? "/work" = some node ∧
        ∀ other, other ∈ node.childPaths ↔ other = "/work/a") ∧
      index.withHierarchy.withHierarchy = index.withHierarchy := by
  intro index
  have sorted : index.Sorted := by
    show index.keys.Pairwise (· < ·)
    decide +kernel
  have trimmed : ∀ path ∈ index.keys, TagPath.IsTrimmed path := by decide +kernel
  have child : index.keys.filter (TagPath.isDirectChild "/work") = ["/work/a"] := by
    decide +kernel
  obtain ⟨-, entries, -, -, again⟩ := links_are_exact sorted trimmed
  obtain ⟨node, found, children, -⟩ := entries "/work" _ rfl
  refine ⟨sorted, trimmed, ⟨node, found, fun other => ?_⟩, again⟩
  rw [children, ← List.mem_filter, child, List.mem_singleton]

end TagIndex

end TaggedMemos
