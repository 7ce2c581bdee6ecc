import TaggedMemos.CommandLine.Rendering
import TaggedMemos.Proofs.Listing
import TaggedMemos.Proofs.PathOrder

/-!
# Printed Tag Trees

Tags are printed in ascending order of their paths, each one indented by the number of its listed
ancestors. Who reads such a tree takes a tag to be below the last one before it that is indented
less.

Ascending order is not the order of a tree. A path that goes on from `/a` with a character below the
slash comes before `/a/c`, so that `/a/c` is printed below `/a-b` (`tree_misplaces_tags`). A tag
whose own parent is not listed starts anew at the margin, and it cuts off what comes after it in the
same way. Nothing else can go wrong.

## Main results

* `depth_of_parent`: a tag is indented by one more step than its parent.
* `nested_iff_depth`: a tree is right if no tag between a tag and its parent is indented less.
* `readTree_of_nested`: the paths can be read back from a tree that is right.
* `nested_iff_of_listTags`: when the tree printed for a listing is right.
-/

namespace TaggedMemos

/-! ### Tags as they are listed -/

/-- What every listing with a hierarchy is: tags in ascending order of their paths, each one linked
to its parent if that is listed too. -/
structure Arranged (nodes : List TagNode) : Prop where
  /-- Each path comes once, in order. -/
  ascending : nodes.Pairwise fun node later => node.path < later.path
  /-- Links lead to parents, and all of these that are listed are linked. -/
  linked : ∀ node ∈ nodes,
    node.parentPath = (TagPath.parent? node.path).filter (· ∈ nodes.map (·.path))
  /-- The segments are those of the path. -/
  segments : ∀ node ∈ nodes, node.segments = TagPath.segments node.path

section Arranged

open Service

variable {nodes : List TagNode} {node parent other : TagNode}

/-- The hierarchy arranges the entries of an index. -/
theorem arranged_withHierarchy {index : TagIndex} (sorted : index.Sorted) (keyed : index.Keyed)
    (withIds : Bool) :
    Arranged (index.withHierarchy.map fun entry => shown withIds entry.2) := by
  let entryOf := fun entry : String × TagNode => shown withIds
    { entry.2 with
      childPaths := index.childrenOf entry.1
      parentPath := index.parentOf entry.1
      totalCount := index.withLinks.totalCount entry.1 }
  have nodes : index.withHierarchy.map (fun entry => shown withIds entry.2) =
      index.map entryOf := by
    simp only [TagIndex.withHierarchy, TagIndex.withLinks, List.map_map]
    rfl
  have kept : ∀ entry : String × TagNode, (entryOf entry).path = entry.2.path ∧
      (entryOf entry).segments = entry.2.segments ∧
      (entryOf entry).parentPath = index.parentOf entry.1 := by
    intro entry
    cases withIds with
    | true => exact ⟨rfl, rfl, rfl⟩
    | false => exact ⟨rfl, rfl, rfl⟩
  have paths : (index.map entryOf).map (·.path) = index.keys := by
    rw [List.map_map, TagIndex.keys]
    exact List.map_congr_left fun entry member => (kept entry).1.trans (keyed entry member).1
  rw [nodes]
  refine ⟨List.pairwise_map.mp (paths ▸ sorted), fun node member => ?_, fun node member => ?_⟩
  · rw [paths]
    obtain ⟨entry, known, rfl⟩ := List.mem_map.mp member
    rw [(kept entry).2.2, (kept entry).1, (keyed entry known).1, TagIndex.parentOf]
    refine congrArg (fun keep => (TagPath.parent? entry.1).filter keep) (funext fun above => ?_)
    rw [Bool.eq_iff_iff, decide_eq_true_iff, Option.isSome_iff_ne_none, ne_eq,
      TagIndex.find?_eq_none, Classical.not_not]
  · obtain ⟨entry, known, rfl⟩ := List.mem_map.mp member
    rw [(kept entry).2.1, (kept entry).1, (keyed entry known).2, (keyed entry known).1]

/-- Every listing with a hierarchy is arranged. -/
theorem arranged_answer {query : TagQuery} (hierarchy : query.withHierarchy = true) (user : UserId)
    (memos : Collection) : Arranged (query.answer (memos.index user)) := by
  have sorted : (memos.index user).Sorted := TagIndex.sorted_ofMemos _
  have keyed : (memos.index user).Keyed := TagIndex.keyed_ofMemos _
  simp only [TagQuery.answer, hierarchy, if_true]
  cases query.start with
  | none => exact arranged_withHierarchy sorted keyed query.withIds
  | some start =>
      exact arranged_withHierarchy (sorted.startingWith start) (keyed.startingWith start)
        query.withIds

namespace Arranged

/-- Tags are told apart by their paths. -/
theorem eq_of_path (arranged : Arranged nodes) (member : node ∈ nodes) (member' : other ∈ nodes)
    (same : node.path = other.path) : node = other := by
  have distinct : (nodes.map (·.path)).Nodup :=
    List.pairwise_map.mpr (arranged.ascending.imp ne_of_lt)
  exact List.inj_on_of_nodup_map distinct member member' same

/-- A listed tag is found by its path. -/
theorem find?_path (arranged : Arranged nodes) (member : node ∈ nodes) :
    nodes.find? (·.path == node.path) = some node := by
  cases found : nodes.find? (·.path == node.path) with
  | none => exact absurd (List.find?_eq_none.mp found node member) (by simp)
  | some other =>
      have same : other.path = node.path := by simpa using List.find?_some found
      rw [arranged.eq_of_path (List.mem_of_find?_eq_some found) member same]

/-- A link leads to a listed tag, from whose path the tag goes on with one more segment. -/
theorem parent_of_link (arranged : Arranged nodes) (member : node ∈ nodes) {above : String}
    (link : node.parentPath = some above) :
    ∃ parent ∈ nodes, parent.path = above ∧
      ∃ last, node.path.toList = above.toList ++ '/' :: last ∧ '/' ∉ last := by
  rw [arranged.linked node member, Option.filter_eq_some_iff] at link
  obtain ⟨parent, known, same⟩ := List.mem_map.mp (by simpa using link.2)
  exact ⟨parent, known, same, (TagPath.parent?_eq_some link.1).2⟩

/-- A parent comes before the tags that it is the parent of. -/
theorem parent_lt (arranged : Arranged nodes) (member : node ∈ nodes)
    (link : node.parentPath = some parent.path) : parent.path < node.path := by
  obtain ⟨_, -, -, _, longer, -⟩ := arranged.parent_of_link member link
  exact lt_of_longer longer

/-- What comes before a tag of a listing stands before it. -/
theorem mem_before (arranged : Arranged nodes) {before after : List TagNode}
    (split : nodes = before ++ node :: after) (member : other ∈ nodes)
    (less : other.path < node.path) : other ∈ before := by
  have ascending := arranged.ascending
  rw [split] at ascending member
  have afterNode := (List.pairwise_cons.mp (List.pairwise_append.mp ascending).2.1).1
  rcases List.mem_append.mp member with early | member
  · exact early
  · rcases List.mem_cons.mp member with rfl | late
    · exact absurd less (lt_irrefl _)
    · exact absurd (afterNode other late) less.asymm

/-- What stands between two tags of a listing comes after the one and before the other. -/
theorem mem_between (arranged : Arranged nodes) {earlier between after : List TagNode}
    (split : nodes = earlier ++ parent :: between ++ node :: after) :
    other ∈ between ↔ other ∈ nodes ∧ parent.path < other.path ∧ other.path < node.path := by
  have ascending := arranged.ascending
  rw [split] at ascending
  obtain ⟨front, -, across⟩ := List.pairwise_append.mp ascending
  obtain ⟨-, middle, apart⟩ := List.pairwise_append.mp front
  constructor
  · intro here
    refine ⟨by simp [split, here], ?_, across other (by simp [here]) node (by simp)⟩
    exact (List.pairwise_cons.mp middle).1 other here
  · rintro ⟨member, after', before'⟩
    rcases List.mem_append.mp (arranged.mem_before split member before') with early | member
    · exact absurd (apart other early parent (by simp)) after'.asymm
    · rcases List.mem_cons.mp member with rfl | here
      · exact absurd after' (lt_irrefl _)
      · exact here

end Arranged

end Arranged

/-! ### Depths -/

namespace CommandLine

variable {nodes : List TagNode} {node parent other : TagNode} {path above : String}

/-- The number of tags that come no later than a path: more are not met on the way up from it. -/
def reachable (nodes : List TagNode) (path : String) : Nat :=
  nodes.countP (·.path ≤ path)

/-- Fewer tags come no later than an earlier path. -/
theorem reachable_lt (member : node ∈ nodes) (less : above < node.path) :
    reachable nodes above < reachable nodes node.path := by
  obtain ⟨front, back, rfl⟩ := List.append_of_mem member
  have mono : ∀ nodes : List TagNode,
      nodes.countP (·.path ≤ above) ≤ nodes.countP (·.path ≤ node.path) := fun nodes =>
    List.countP_mono_left fun other _ within =>
      decide_eq_true ((of_decide_eq_true within).trans less.le)
  have front' := mono front
  have back' := mono back
  simp only [reachable, List.countP_append, List.countP_cons, not_le.mpr less, le_refl,
    decide_true, decide_false, if_true, Bool.false_eq_true, if_false]
  omega

/-- A listed tag is one of those that come no later. -/
theorem reachable_pos (member : node ∈ nodes) : 0 < reachable nodes node.path :=
  List.countP_pos_iff.mpr ⟨node, member, decide_eq_true le_rfl⟩

/-- Without an ancestor the depth is zero. -/
theorem depthFrom_none (steps : Nat) (seen : List String) :
    depthFrom nodes steps seen none = 0 := by
  cases steps <;> rfl

/-- The depth of a listed path is one more than that of its parent. -/
theorem depthFrom_of_mem (arranged : Arranged nodes) (member : node ∈ nodes) {steps : Nat}
    {seen : List String} (below : ∀ q ∈ seen, node.path < q) :
    depthFrom nodes (steps + 1) seen (some node.path) =
      depthFrom nodes steps (node.path :: seen) node.parentPath + 1 := by
  have new : seen.contains node.path = false := by
    rw [Bool.eq_false_iff, ne_eq, List.contains_iff_mem]
    exact fun old => lt_irrefl _ (below _ old)
  simp only [depthFrom, arranged.find?_path member, new, Bool.false_eq_true, if_false]

/-- The search for the depth of a listed path comes to the same in any number of steps that is large
enough, whatever further down it has seen. -/
theorem depthFrom_eq (arranged : Arranged nodes) (member : node ∈ nodes) {steps steps' : Nat}
    {seen seen' : List String} (enough : reachable nodes node.path ≤ steps)
    (enough' : reachable nodes node.path ≤ steps') (below : ∀ q ∈ seen, node.path < q)
    (below' : ∀ q ∈ seen', node.path < q) :
    depthFrom nodes steps seen (some node.path) =
      depthFrom nodes steps' seen' (some node.path) := by
  have positive := reachable_pos member
  -- The induction is on the steps: less is reachable from the parent.
  induction steps generalizing steps' seen seen' node with
  | zero => omega
  | succ steps ih =>
      obtain ⟨steps', rfl⟩ : ∃ n, steps' = n + 1 := ⟨steps' - 1, by omega⟩
      rw [depthFrom_of_mem arranged member below, depthFrom_of_mem arranged member below']
      cases link : node.parentPath with
      | none => rw [depthFrom_none, depthFrom_none]
      | some above =>
          obtain ⟨parent, known, rfl, _, longer, -⟩ := arranged.parent_of_link member link
          have less := lt_of_longer longer
          have fewer := reachable_lt member less
          have further : ∀ seen : List String, (∀ q ∈ seen, node.path < q) →
              ∀ q ∈ node.path :: seen, parent.path < q := fun seen below =>
            List.forall_mem_cons.mpr ⟨less, fun q old => less.trans (below q old)⟩
          have within : reachable nodes parent.path ≤ steps := by omega
          have within' : reachable nodes parent.path ≤ steps' := by omega
          rw [ih known within within' (further seen below) (further seen' below')
            (reachable_pos known)]

/-- A tag without a listed parent stands at the margin. -/
theorem depth_of_root (root : node.parentPath = none) : depth nodes node = 0 := by
  rw [depth, root, depthFrom_none]

/-- **A tag is indented by one more step than its parent.** -/
theorem depth_of_parent (arranged : Arranged nodes) (known : parent ∈ nodes)
    (link : node.parentPath = some parent.path) :
    depth nodes node = depth nodes parent + 1 := by
  have within : reachable nodes parent.path ≤ nodes.length := List.countP_le_length
  have positive := reachable_pos known
  obtain ⟨steps, size⟩ : ∃ n, nodes.length = n + 1 := ⟨nodes.length - 1, by omega⟩
  rw [depth, depth, link, size, depthFrom_of_mem arranged known (by simp)]
  cases link' : parent.parentPath with
  | none => rw [depthFrom_none, depthFrom_none]
  | some above =>
      obtain ⟨grandparent, known', rfl, _, longer, -⟩ := arranged.parent_of_link known link'
      have less := lt_of_longer longer
      have fewer := reachable_lt known less
      have enough : reachable nodes grandparent.path ≤ steps := by omega
      have below : ∀ q ∈ [parent.path], grandparent.path < q := by simpa using less
      rw [depthFrom_eq arranged known' enough (enough.trans (Nat.le_succ steps)) below
        (List.forall_mem_nil (grandparent.path < ·))]

/-- What is indented has a listed parent. -/
theorem exists_parent_of_depth_pos (arranged : Arranged nodes) (member : node ∈ nodes)
    (indented : 0 < depth nodes node) :
    ∃ parent ∈ nodes, node.parentPath = some parent.path ∧
      depth nodes node = depth nodes parent + 1 := by
  cases link : node.parentPath with
  | none => exact absurd (depth_of_root link) indented.ne'
  | some above =>
      obtain ⟨parent, known, rfl, -⟩ := arranged.parent_of_link member link
      exact ⟨parent, known, rfl, depth_of_parent arranged known link⟩

/-! ### Trees that are right -/

/-- Every tag that is indented stands below its parent: of the tags before it that are indented
less, the last one is its parent, and it is indented by one step less. -/
def Nested (nodes : List TagNode) : Prop :=
  ∀ before node after, nodes = before ++ node :: after → 0 < depth nodes node →
    ∃ earlier parent between, before = earlier ++ parent :: between ∧
      node.parentPath = some parent.path ∧ depth nodes node = depth nodes parent + 1 ∧
      ∀ other ∈ between, depth nodes node ≤ depth nodes other

/-- **A tree is right** if no tag between a tag and its parent is indented less than the tag. -/
theorem nested_iff_depth (arranged : Arranged nodes) :
    Nested nodes ↔ ∀ node ∈ nodes, ∀ parent ∈ nodes, node.parentPath = some parent.path →
      ∀ other ∈ nodes, parent.path < other.path → other.path < node.path →
        depth nodes node ≤ depth nodes other := by
  constructor
  · intro nested node member parent known link other listed after' before'
    obtain ⟨before, after, split⟩ := List.append_of_mem member
    have indented : 0 < depth nodes node := by
      rw [depth_of_parent arranged known link]
      omega
    obtain ⟨earlier, parent', between, rfl, link', -, kept⟩ :=
      nested before node after split indented
    have same : parent'.path = parent.path := Option.some.inj (link'.symm.trans link)
    exact kept other ((arranged.mem_between split).mpr ⟨listed, same ▸ after', before'⟩)
  · intro kept before node after split indented
    have member : node ∈ nodes := by simp [split]
    obtain ⟨parent, known, link, deeper⟩ := exists_parent_of_depth_pos arranged member indented
    have early := arranged.mem_before split known (arranged.parent_lt member link)
    obtain ⟨earlier, between, rfl⟩ := List.append_of_mem early
    refine ⟨earlier, parent, between, rfl, link, deeper, fun other here => ?_⟩
    obtain ⟨listed, after', before'⟩ := (arranged.mem_between split).mp here
    exact kept node member parent known link other listed after' before'

/-- What stands between a tag and its parent is below the parent and has a listed parent itself, if
nothing between a tag and its parent is indented less than the tag. -/
theorem below_of_depth (arranged : Arranged nodes)
    (kept : ∀ node ∈ nodes, ∀ parent ∈ nodes, node.parentPath = some parent.path →
      ∀ other ∈ nodes, parent.path < other.path → other.path < node.path →
        depth nodes node ≤ depth nodes other)
    (member : node ∈ nodes) (known : parent ∈ nodes) (link : node.parentPath = some parent.path)
    (listed : other ∈ nodes) (after : parent.path < other.path) (before : other.path < node.path) :
    (∃ rest, other.path.toList = parent.path.toList ++ '/' :: rest) ∧ other.parentPath ≠ none := by
  -- The induction is on the length of the path: the parent of `other` stands between them too.
  induction size : other.path.toList.length using Nat.strong_induction_on generalizing other with
  | _ n ih =>
      have deep := kept node member parent known link other listed after before
      rw [depth_of_parent arranged known link] at deep
      obtain ⟨parent', known', link', deeper⟩ :=
        exists_parent_of_depth_pos arranged listed (by omega)
      obtain ⟨-, -, -, last, longer, -⟩ := arranged.parent_of_link listed link'
      refine ⟨?_, by simp [link']⟩
      rcases lt_trichotomy parent'.path parent.path with less | same | greater
      · -- Then the parent of `node` would stand between `other` and its parent, and be too high up.
        have high := kept other listed parent' known' link' parent known less after
        omega
      · exact ⟨last, same ▸ longer⟩
      · have shorter : parent'.path.toList.length < n := by
          rw [← size, longer, List.length_append, List.length_cons]
          omega
        obtain ⟨⟨rest, below⟩, -⟩ := ih _ shorter known' greater
          ((lt_of_longer longer).trans before) rfl
        exact ⟨rest ++ '/' :: last, by rw [longer, below]; simp⟩

/-- What stands between a tag and its parent is indented at least as the tag is, if all of it is
below the parent and has a listed parent itself. -/
theorem depth_of_below (arranged : Arranged nodes) (known : parent ∈ nodes)
    (between : ∀ other ∈ nodes, parent.path < other.path → other.path < node.path →
      (∃ rest, other.path.toList = parent.path.toList ++ '/' :: rest) ∧ other.parentPath ≠ none)
    (listed : other ∈ nodes) (after : parent.path < other.path) (before : other.path < node.path) :
    depth nodes parent + 1 ≤ depth nodes other := by
  induction size : other.path.toList.length using Nat.strong_induction_on generalizing other with
  | _ n ih =>
      obtain ⟨⟨rest, below⟩, orphan⟩ := between other listed after before
      obtain ⟨above, link⟩ := Option.ne_none_iff_exists'.mp orphan
      obtain ⟨parent', known', rfl, last, longer, free⟩ := arranged.parent_of_link listed link
      rw [depth_of_parent arranged known' link]
      rcases eq_or_below_of_parent below longer free with same | ⟨rest', below'⟩
      · rw [arranged.eq_of_path known' known same]
      · have shorter : parent'.path.toList.length < n := by
          rw [← size, longer, List.length_append, List.length_cons]
          omega
        have deep := ih _ shorter known' (lt_of_longer below')
          ((lt_of_longer longer).trans before) rfl
        omega

/-- **A tree is right** exactly if no listed tag goes on from a listed parent with a character below
the slash, and if all that are below the parent and come before one of its children have their own
parents listed. -/
theorem nested_iff (arranged : Arranged nodes) :
    Nested nodes ↔ ∀ node ∈ nodes, ∀ above, node.parentPath = some above → ∀ other ∈ nodes,
      (∀ c rest, other.path.toList = above.toList ++ c :: rest → '/' ≤ c) ∧
      (above.toList ++ ['/'] <+: other.path.toList → other.path < node.path →
        other.parentPath ≠ none) := by
  rw [nested_iff_depth arranged]
  constructor
  · intro kept node member above link other listed
    obtain ⟨parent, known, rfl, _, longer, -⟩ := arranged.parent_of_link member link
    have between := below_of_depth arranged kept member known link listed
    constructor
    · intro c rest longer'
      by_contra small
      obtain ⟨⟨_, below⟩, -⟩ :=
        between (lt_of_longer longer') (lt_of_lt_char (not_le.mp small) longer' longer)
      obtain ⟨rfl, -⟩ := List.cons.inj (List.append_cancel_left (longer'.symm.trans below))
      exact small le_rfl
    · rintro ⟨rest, below⟩ before
      have below : other.path.toList = parent.path.toList ++ '/' :: rest := by simp [← below]
      exact (between (lt_of_longer below) before).2
  · intro clear node member parent known link other listed after before
    rw [depth_of_parent arranged known link]
    obtain ⟨_, -, -, _, longer, -⟩ := arranged.parent_of_link member link
    refine depth_of_below arranged known (fun other listed after before => ?_) listed after before
    obtain ⟨large, linked⟩ := clear node member _ link other listed
    obtain ⟨c, rest, longer', small⟩ := longer_of_between longer after before
    obtain rfl : c = '/' := le_antisymm small (large c rest longer')
    exact ⟨⟨rest, longer'⟩, linked ⟨rest, by simp [longer']⟩ before⟩

/-! ### Reading a tree -/

/-- How a tag is printed in a tree: how far it is indented, and under which name. -/
def printed (nodes : List TagNode) (node : TagNode) : Nat × String :=
  (depth nodes node, label (depth nodes node) node)

/-- The paths that a reader finds in the lines of a tree: the name at the margin is a path, and any
other one goes on from the last path before that is indented less. -/
def readTree (earlier : List (Nat × String)) : List (Nat × String) → List String
  | [] => []
  | (level, name) :: rest =>
    let path := match earlier.find? (·.1 < level) with
      | some (_, above) => above ++ "/" ++ name
      | none => name
    path :: readTree ((level, path) :: earlier) rest

/-- The name of a tag with a listed parent is what its path goes on with. -/
theorem append_label (arranged : Arranged nodes) (member : node ∈ nodes)
    (link : node.parentPath = some parent.path) (indented : 0 < depth nodes node)
    (trimmed : node.path.toList.getLast? ≠ some '/') :
    parent.path ++ "/" ++ label (depth nodes node) node = node.path := by
  obtain ⟨-, -, -, last, longer, free⟩ := arranged.parent_of_link member link
  have filled : last ≠ [] := by
    rintro rfl
    simp [longer] at trimmed
  have named : node.segments.getLast? = some (String.ofList last) := by
    rw [arranged.segments node member, TagPath.segments, longer, TagPath.pieces_append,
      TagPath.pieces_of_isSegment ⟨filled, free⟩]
    simp
  rw [label, if_neg indented.ne', named, Option.getD_some, ← String.toList_inj, longer]
  simp

/-- Going back from an indented tag, the first one that is indented less is its parent. -/
theorem find?_earlier (nested : Nested nodes) {before rest : List TagNode}
    (split : nodes = before ++ node :: rest) (indented : 0 < depth nodes node) :
    ∃ parent, node.parentPath = some parent.path ∧
      (before.reverse.map fun node => (depth nodes node, node.path)).find?
        (·.1 < depth nodes node) = some (depth nodes parent, parent.path) := by
  obtain ⟨earlier, parent, between, rfl, link, deeper, kept⟩ :=
    nested before node rest split indented
  have passed : (between.reverse.map fun node => (depth nodes node, node.path)).find?
      (·.1 < depth nodes node) = none := by
    rw [List.find?_eq_none]
    intro entry member
    obtain ⟨other, here, rfl⟩ := List.mem_map.mp member
    simpa using kept other (List.mem_reverse.mp here)
  have met : decide (depth nodes parent < depth nodes node) = true := by simp [deeper]
  refine ⟨parent, link, ?_⟩
  rw [List.reverse_append, List.reverse_cons, List.append_assoc, List.map_append,
    List.find?_append, passed]
  simp only [List.singleton_append, List.map_cons, List.find?_cons, met, Option.none_or]

/-- **The paths can be read back** from a tree that is right. -/
theorem readTree_of_nested (arranged : Arranged nodes) (nested : Nested nodes)
    (trimmed : ∀ node ∈ nodes, node.parentPath ≠ none → node.path.toList.getLast? ≠ some '/')
    {before rest : List TagNode} (split : nodes = before ++ rest) :
    readTree (before.reverse.map fun node => (depth nodes node, node.path))
        (rest.map (printed nodes)) = rest.map (·.path) := by
  induction rest generalizing before with
  | nil => rfl
  | cons node rest ih =>
      have split' : nodes = (before ++ [node]) ++ rest := by simp [split]
      have later := ih split'
      rw [List.reverse_append, List.reverse_singleton, List.singleton_append,
        List.map_cons] at later
      rw [List.map_cons, List.map_cons, printed, readTree]
      rcases Nat.eq_zero_or_pos (depth nodes node) with margin | indented
      · have none : (before.reverse.map fun node => (depth nodes node, node.path)).find?
            (·.1 < depth nodes node) = none := List.find?_eq_none.mpr fun _ _ => by simp [margin]
        have named : label (depth nodes node) node = node.path := by rw [label, if_pos margin]
        simp only [none, named]
        rw [later]
      · obtain ⟨parent, link, found⟩ := find?_earlier nested split indented
        have member : node ∈ nodes := by simp [split]
        have clean := trimmed node member (by simp [link])
        have named := append_label arranged member link indented clean
        simp only [found, named]
        rw [later]

/-! ### The tree of a listing -/

/-- The line of a tag in a tree begins with its indentation and its name. -/
theorem tagLine_eq (d : Display) (tree : d.flat = false) (nodes : List TagNode) (node : TagNode) :
    ∃ rest, tagLine d nodes node =
      String.ofList (List.replicate (2 * (printed nodes node).1) ' ') ++
        d.paint .bold (printed nodes node).2 ++ " " ++ rest := by
  simp only [tagLine, tree, Bool.false_eq_true, if_false, printed, String.append_assoc]
  exact ⟨_, rfl⟩

/-- **When the printed tree of a listing is right.** Each tag with a listed parent comes after it
and is indented by one more step. The parent is also the last tag before that is indented less, for
all tags, exactly if no listed tag goes on from a listed parent with a character below the slash,
and if the tags below a parent that come before one of its children have their own parents listed.
From such a tree the paths can be read back. -/
theorem nested_iff_of_listTags {c : Circumstances} {memos : Collection} {query : Service.TagQuery}
    (hierarchy : query.withHierarchy = true)
    (listed : (Call.outcome ⟨c, .listTags query⟩ memos).1 = .ok (.tags nodes)) :
    (∀ node ∈ nodes, ∀ above, node.parentPath = some above → ∃ parent ∈ nodes,
      parent.path = above ∧ parent.path < node.path ∧
        depth nodes node = depth nodes parent + 1) ∧
    (Nested nodes ↔ ∀ node ∈ nodes, ∀ above, node.parentPath = some above → ∀ other ∈ nodes,
      (∀ c rest, other.path.toList = above.toList ++ c :: rest → '/' ≤ c) ∧
      (above.toList ++ ['/'] <+: other.path.toList → other.path < node.path →
        other.parentPath ≠ none)) ∧
    (Nested nodes →
      (∀ node ∈ nodes, node.parentPath ≠ none → node.path.toList.getLast? ≠ some '/') →
      readTree [] (nodes.map (printed nodes)) = nodes.map (·.path)) ∧
    ∀ d : Display, d.flat = false → ∀ node ∈ nodes, ∃ rest, tagLine d nodes node =
      String.ofList (List.replicate (2 * (printed nodes node).1) ' ') ++
        d.paint .bold (printed nodes node).2 ++ " " ++ rest := by
  obtain rfl : query.answer (memos.index c.user) = nodes :=
    Answer.tags.inj (Except.ok.inj ((listTags_outcome query).symm.trans listed))
  have arranged := arranged_answer hierarchy c.user memos
  refine ⟨fun node member above link => ?_, nested_iff arranged, fun nested trimmed => ?_,
    fun d tree node _ => tagLine_eq d tree _ node⟩
  · obtain ⟨parent, known, rfl, -⟩ := arranged.parent_of_link member link
    exact ⟨parent, known, rfl, arranged.parent_lt member link, depth_of_parent arranged known link⟩
  · exact readTree_of_nested arranged nested trimmed (List.nil_append _).symm

/-- Three memos with one tag each. -/
def threeTags (first second third : String) : Collection :=
  [(1, first), (2, second), (3, third)].map fun (n, tag) =>
    { id := .ofNat n, creator := 1, content := "", payload := { tags := [tag] }, created := default,
      updated := default }

/-- The tag `/a/c` is printed below `/a-b`. -/
theorem tree_misplaces_tags :
    let c : Circumstances := { user := 1, freshId := default, now := default }
    ∃ nodes, (Call.outcome ⟨c, .listTags {}⟩ (threeTags "/a" "/a-b" "/a/c")).1 = .ok (.tags nodes) ∧
      ¬ Nested nodes ∧
      nodes.map (printed nodes) = [(0, "/a"), (0, "/a-b"), (1, "c")] ∧
      readTree [] (nodes.map (printed nodes)) = ["/a", "/a-b", "/a-b/c"] := by
  intro c
  refine ⟨_, listTags_outcome {}, fun nested => ?_, by decide +kernel, by decide +kernel⟩
  have kept := (nested_iff_depth (arranged_answer rfl _ _)).mp nested
  revert kept
  decide +kernel

/-- The tag `/a_b` comes after `/a/c`, so each of them is printed in its place. -/
theorem nested_iff_of_listTags_underscore :
    let c : Circumstances := { user := 1, freshId := default, now := default }
    ∃ nodes,
      (Call.outcome ⟨c, .listTags {}⟩ (threeTags "/a" "/a_b" "/a/c")).1 = .ok (.tags nodes) ∧
      Nested nodes ∧ nodes.map (printed nodes) = [(0, "/a"), (1, "c"), (0, "/a_b")] ∧
      readTree [] (nodes.map (printed nodes)) = ["/a", "/a/c", "/a_b"] := by
  intro c
  have listed : (Call.outcome ⟨c, .listTags {}⟩ (threeTags "/a" "/a_b" "/a/c")).1 = _ :=
    listTags_outcome {}
  obtain ⟨-, -, read, -⟩ := nested_iff_of_listTags rfl listed
  have nested : Nested (Service.TagQuery.answer {} ((threeTags "/a" "/a_b" "/a/c").index 1)) := by
    rw [nested_iff_depth (arranged_answer rfl _ _)]
    decide +kernel
  exact ⟨_, listTags_outcome {}, nested, by decide +kernel,
    (read nested (by decide +kernel)).trans (by decide +kernel)⟩

end CommandLine

end TaggedMemos
