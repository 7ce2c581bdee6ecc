import TaggedMemos.Proofs.Hierarchy

/-!
# Listing a Part of an Index

A listing can be limited to the paths that begin with a text. The text is no path: `/wo` keeps
`/work` and everything below it, and `/work/a` drops `/work` itself. The hierarchy is built after
that, from the entries that are left, so its links and totals could differ from those of the whole
index.

They do not, but for the parents that are left out. What goes on from a path that is kept is kept as
well, so an entry has all its children, and the search for its total never leaves the entries kept.
This holds of any choice of paths that is closed below (`ClosedBelow`).

## Main results

* `withHierarchy_restrict`: the hierarchy of a part of an index.
* `startingWith_eq_restrict`, `closedBelow_begins`: a listing is such a part.
* `part_agrees_with_whole`: what an entry of a listing has in common with that of the whole index.
-/

namespace TaggedMemos.TagIndex

variable {index : TagIndex} {keep : String → Bool} {path other above start : String}
variable {node : TagNode}

/-- The entries on the paths that are kept. -/
def restrict (index : TagIndex) (keep : String → Bool) : TagIndex :=
  index.filter fun entry => keep entry.1

/-- With a path, everything directly below it is kept. -/
def ClosedBelow (keep : String → Bool) : Prop :=
  ∀ path other, keep path = true → TagPath.isDirectChild path other = true → keep other = true

/-! ### Entries of a part -/

/-- The keys of a part are those that it keeps. -/
theorem keys_restrict : (index.restrict keep).keys = index.keys.filter keep := by
  rw [keys, restrict, keys, List.filter_map]
  rfl

/-- A part has its keys in order. -/
theorem Sorted.restrict (sorted : index.Sorted) (keep : String → Bool) :
    (index.restrict keep).Sorted := by
  rw [Sorted, keys_restrict]
  exact sorted.filter _

/-- What is found in a part is what is found in the whole, for the paths that it keeps. -/
theorem find?_restrict :
    (index.restrict keep).find? path = if keep path = true then index.find? path else none := by
  induction index with
  | nil => simp [restrict, find?]
  | cons entry rest ih =>
      rw [restrict] at ih
      rw [restrict, List.filter_cons]
      by_cases same : entry.1 = path
      · subst same
        by_cases kept : keep entry.1 = true
        · rw [if_pos kept, if_pos kept, find?, find?, if_pos rfl, if_pos rfl]
        · rw [if_neg kept, if_neg kept, ih, if_neg kept]
      · rw [find?, if_neg same]
        split
        · rw [find?, if_neg same, ih]
        · exact ih

/-- A change of the entries that keeps their paths may be made before or after. -/
theorem restrict_mapEntries (change : String → TagNode → TagNode) :
    restrict (index.map fun entry => (entry.1, change entry.1 entry.2)) keep =
      (index.restrict keep).map fun entry => (entry.1, change entry.1 entry.2) := by
  rw [restrict, List.filter_map, restrict]
  rfl

/-! ### Links and totals of a part -/

/-- A path that is kept has all its children in the part. -/
theorem childrenOf_restrict (sorted : index.Sorted) (closed : ClosedBelow keep)
    (kept : keep path = true) : (index.restrict keep).childrenOf path = index.childrenOf path := by
  rw [childrenOf_eq_filter sorted, childrenOf_eq_filter (sorted.restrict keep), keys_restrict,
    List.filter_filter]
  refine List.filter_congr fun other _ => ?_
  rw [Bool.and_eq_left_iff_imp]
  exact closed path other kept

/-- A path has its parent in the part if the parent is kept. -/
theorem parentOf_restrict :
    (index.restrict keep).parentOf path = (index.parentOf path).filter keep := by
  ext above
  rw [Option.filter_eq_some_iff, parentOf_eq_some, parentOf_eq_some, keys_restrict, List.mem_filter,
    and_assoc]

/-- The search for a total stays within the part. -/
theorem totalCount_restrict (sorted : index.Sorted) (closed : ClosedBelow keep)
    (kept : keep path = true) :
    (index.restrict keep).withLinks.totalCount path = index.withLinks.totalCount path := by
  refine countFrom_congr (keep · = true) (fun path kept => ?_) (fun path node kept found => ?_)
    [] [path] (List.forall_mem_singleton.mpr kept)
  · rw [find?_withLinks, find?_withLinks, find?_restrict, if_pos kept, Option.map_map,
      Option.map_map, childrenOf_restrict sorted closed kept]
    rfl
  · intro child member
    rw [find?_withLinks, Option.map_eq_some_iff] at found
    obtain ⟨old, -, rfl⟩ := found
    rw [childrenOf_restrict sorted closed kept] at member
    exact closed path child kept ((mem_childrenOf sorted).mp member).2

/-- **The hierarchy of a part** is the part of the hierarchy, without the parents that are not
kept. -/
theorem withHierarchy_restrict (sorted : index.Sorted) (closed : ClosedBelow keep) :
    (index.restrict keep).withHierarchy =
      (index.withHierarchy.restrict keep).map fun entry =>
        (entry.1, { entry.2 with parentPath := entry.2.parentPath.filter keep }) := by
  let linked (path : String) (node : TagNode) : TagNode := { node with
    childPaths := index.childrenOf path
    parentPath := index.parentOf path
    totalCount := index.withLinks.totalCount path }
  have whole : index.withHierarchy = index.map fun entry => (entry.1, linked entry.1 entry.2) :=
    withHierarchy_eq_relinked index
  rw [whole, restrict_mapEntries, List.map_map, withHierarchy_eq_relinked, relinked]
  refine List.map_congr_left fun entry member => ?_
  have kept : keep entry.1 = true := (List.mem_filter.mp member).2
  simp only [Function.comp_apply, linked, childrenOf_restrict sorted closed kept,
    parentOf_restrict, totalCount_restrict sorted closed kept]

/-! ### Listings -/

/-- Whether a path begins with the text that a listing is limited to. -/
def begins (start path : String) : Bool :=
  start.isEmpty || (TagPath.withSlash start).toList.isPrefixOf path.toList

/-- The paths that begin with a prefix make up a part. -/
theorem startingWith_eq_restrict (index : TagIndex) (start : String) :
    index.startingWith start = index.restrict (begins start) := by
  rw [startingWith, restrict]
  split
  · next empty =>
      refine (List.filter_eq_self.mpr fun entry _ => ?_).symm
      rw [begins, empty, Bool.true_or]
  · next filled =>
      refine List.filter_congr fun entry _ => ?_
      rw [begins, Bool.eq_false_iff.mpr filled, Bool.false_or]

/-- What goes on from a path begins with the same text. -/
theorem closedBelow_begins (start : String) : ClosedBelow (begins start) := by
  intro path other kept child
  obtain ⟨last, longer, -⟩ := TagPath.isDirectChild_iff.mp child
  rw [begins, Bool.or_eq_true, List.isPrefixOf_iff_prefix] at kept ⊢
  refine kept.imp_right fun front => front.trans ?_
  rw [longer]
  exact List.prefix_append _ _

/-- **A part agrees with the whole.** A listing that is limited to a text has the paths that begin
with it. Its entries are those of the whole index, with the same memos, counts, children and totals.
The parents are the same too, but that parents are left out which do not begin with the text
themselves. -/
theorem part_agrees_with_whole (sorted : index.Sorted) (start : String) :
    let part := (index.startingWith start).withHierarchy
    part.keys = index.keys.filter (begins start) ∧
    ∀ path node, part.find? path = some node → ∃ whole,
      index.withHierarchy.find? path = some whole ∧
      node = { whole with parentPath := node.parentPath } ∧
      ∀ above, node.parentPath = some above ↔
        whole.parentPath = some above ∧ begins start above = true := by
  intro part
  have part_eq : part = (index.restrict (begins start)).withHierarchy := by
    rw [← startingWith_eq_restrict]
  refine ⟨by rw [part_eq, keys_withHierarchy, keys_restrict], fun path node found => ?_⟩
  rw [part_eq, withHierarchy_restrict sorted (closedBelow_begins start),
    find?_mapEntries _ fun _ node =>
      { node with parentPath := node.parentPath.filter (begins start) },
    find?_restrict, Option.map_eq_some_iff] at found
  obtain ⟨whole, found, rfl⟩ := found
  rw [Option.ite_none_right_eq_some] at found
  exact ⟨whole, found.2, rfl, fun above => Option.filter_eq_some_iff⟩

/-- A text that a listing is limited to may drop the parent of one entry and keep that of another.
-/
theorem part_agrees_with_whole_below :
    let index := selfLinked "/work" "/work-x" "/work/a" "/work/a/b"
    index.Sorted ∧ (index.startingWith "work/").withHierarchy.keys = ["/work/a", "/work/a/b"] ∧
      ∃ node, (index.startingWith "work/").withHierarchy.find? "/work/a" = some node ∧
        node.childPaths = ["/work/a/b"] ∧ node.parentPath = none ∧
        index.parentOf "/work/a" = some "/work" := by
  intro index
  have sorted : index.Sorted := by
    show index.keys.Pairwise (· < ·)
    decide +kernel
  have kept : index.keys.filter (begins "work/") = ["/work/a", "/work/a/b"] := by decide +kernel
  have children : index.childrenOf "/work/a" = ["/work/a/b"] := by decide +kernel
  have parent : index.parentOf "/work/a" = some "/work" := by decide +kernel
  obtain ⟨keys, entries⟩ := part_agrees_with_whole sorted "work/"
  have known : "/work/a" ∈ (index.startingWith "work/").withHierarchy.keys := by
    rw [keys, kept]
    exact List.mem_cons_self
  obtain ⟨node, found⟩ := mem_keys_iff.mp known
  obtain ⟨whole, found', same, parents⟩ := entries "/work/a" node found
  rw [find?_withHierarchy, Option.map_eq_some_iff] at found'
  obtain ⟨old, -, rfl⟩ := found'
  refine ⟨sorted, keys.trans kept, node, found, same ▸ children, ?_, parent⟩
  rw [Option.eq_none_iff_forall_ne_some]
  intro above link
  obtain ⟨link, kept⟩ := (parents above).mp link
  obtain rfl : "/work" = above := Option.some.inj (parent.symm.trans link)
  exact absurd kept (by decide +kernel)

end TaggedMemos.TagIndex
