import Mathlib.Algebra.BigOperators.Group.Finset.Basic
import Mathlib.Algebra.GroupWithZero.Nat
import Mathlib.Logic.Relation
import TaggedMemos.Proofs.Hierarchy

/-!
# Totals of the Hierarchy

The search for a total goes through an index with a list of the paths it has visited, so that it
ends on any links. What it counts is each entry once that can be reached from where it starts,
without going through what was visited before.

Between canonical paths the links form a forest: they lead to longer paths, and no path has two
parents. In a forest nothing is reached from two entries of which neither leads to the other. So the
list of visited paths never keeps the search from a child, the total of an entry is made up of its
own count and the totals of its children, and the totals of the roots make up everything.

## Main results

* `countFrom_eq_sum`: a search counts what it can reach, each entry once.
* `IsForest.sum_totalCount`: totals of entries that are apart add up.
* `totals_add_up`: the totals of an index of canonical paths.
-/

namespace TaggedMemos.TagIndex

open Relation

variable {index : TagIndex} {visited pending : List String} {path other child : String}
variable {node : TagNode}

/-! ### What a search reaches -/

/-- A child link to an entry. -/
def IsLink (index : TagIndex) (path child : String) : Prop :=
  child ∈ index.keys ∧ ∃ node, index.find? path = some node ∧ child ∈ node.childPaths

/-- An entry leads to another one by child links between entries that are not visited. -/
def Reaches (index : TagIndex) (visited : List String) (path other : String) : Prop :=
  path ∈ index.keys ∧ path ∉ visited ∧
    ReflTransGen (fun path child => index.IsLink path child ∧ child ∉ visited) path other

/-- The count in the entry of a path, if there is one. -/
def countAt (index : TagIndex) (path : String) : Nat :=
  ((index.find? path).map (·.directCount)).getD 0

/-- The total in the entry of a path, if there is one. -/
def totalAt (index : TagIndex) (path : String) : Nat :=
  ((index.find? path).map (·.totalCount)).getD 0

/-- A link begins at a key. -/
theorem IsLink.mem_keys (link : index.IsLink path child) : path ∈ index.keys := by
  obtain ⟨-, node, found, -⟩ := link
  exact mem_keys_iff.mpr ⟨node, found⟩

/-- Where nothing is visited, all links can be followed. -/
theorem reaches_nil :
    index.Reaches [] path other ↔ path ∈ index.keys ∧ ReflTransGen index.IsLink path other := by
  simp [Reaches]

namespace Reaches

/-- What is reached is reached by links. -/
theorem links (reaches : index.Reaches visited path other) :
    ReflTransGen index.IsLink path other :=
  ReflTransGen.mono (fun _ _ link => link.1) _ _ reaches.2.2

/-- What is reached by the way of others is a key. -/
theorem mem_keys (reaches : index.Reaches visited path other) : other ∈ index.keys := by
  obtain ⟨known, -, links⟩ := reaches
  rcases links.cases_tail with rfl | ⟨_, -, link, -⟩
  · exact known
  · exact link.1

/-- One link more reaches a child that was not visited. -/
theorem tail (reaches : index.Reaches visited path other) (link : index.IsLink other child)
    (new : child ∉ visited) : index.Reaches visited path child :=
  ⟨reaches.1, reaches.2.1, reaches.2.2.tail ⟨link, new⟩⟩

/-- What is reached past a visited path is reached without having visited it. -/
theorem unvisit (reaches : index.Reaches (path :: visited) child other) :
    index.Reaches visited child other :=
  ⟨reaches.1, fun old => reaches.2.1 (List.mem_cons_of_mem _ old),
    ReflTransGen.mono (fun _ _ link =>
      ⟨link.1, fun old => link.2 (List.mem_cons_of_mem _ old)⟩) _ _ reaches.2.2⟩

/-- What is reached is a path itself, or it is reached past it: from where the way began, or from
one of the children of the path. -/
theorem pass {start : String} (reaches : index.Reaches visited start other)
    (found : index.find? path = some node) :
    other = path ∨ index.Reaches (path :: visited) start other ∨
      ∃ child ∈ node.childPaths, index.Reaches (path :: visited) child other := by
  obtain ⟨known, new, links⟩ := reaches
  -- The induction is on the last link: it may lead on from the path itself.
  induction links with
  | refl =>
      by_cases here : start = path
      · exact .inl here
      · exact .inr (.inl ⟨known, List.not_mem_cons_of_ne_of_not_mem here new, .refl⟩)
  | @tail before last _ link ih =>
      by_cases here : last = path
      · exact .inl here
      · have onward : last ∉ path :: visited := List.not_mem_cons_of_ne_of_not_mem here link.2
        rcases ih with rfl | reaches | ⟨child, member, reaches⟩
        · obtain ⟨known', node', found', member⟩ := link.1
          obtain rfl := Option.some.inj (found.symm.trans found')
          exact .inr (.inr ⟨last, member, known', onward, .refl⟩)
        · exact .inr (.inl (reaches.tail link.1 onward))
        · exact .inr (.inr ⟨child, member, reaches.tail link.1 onward⟩)

end Reaches

/-- Going to a path leaves what its children and the paths still to be searched lead to. -/
theorem exists_reaches_cons (new : path ∉ visited) (found : index.find? path = some node)
    (rest : List String) :
    (∃ start ∈ path :: rest, index.Reaches visited start other) ↔
      other = path ∨ ∃ start ∈ node.childPaths ++ rest,
        index.Reaches (path :: visited) start other := by
  have known : path ∈ index.keys := mem_keys_iff.mpr ⟨node, found⟩
  constructor
  · rintro ⟨start, member, reaches⟩
    rcases reaches.pass found with here | past | ⟨child, below, past⟩
    · exact .inl here
    · rcases List.mem_cons.mp member with rfl | later
      · exact absurd List.mem_cons_self past.2.1
      · exact .inr ⟨start, List.mem_append_right _ later, past⟩
    · exact .inr ⟨child, List.mem_append_left _ below, past⟩
  · rintro (rfl | ⟨start, member, past⟩)
    · exact ⟨other, List.mem_cons_self, known, new, .refl⟩
    · rcases List.mem_append.mp member with below | later
      · have link : index.IsLink path start := ⟨past.1, node, found, below⟩
        have onward := past.unvisit
        exact ⟨path, List.mem_cons_self, known, new, onward.2.2.head ⟨link, onward.2.1⟩⟩
      · exact ⟨start, List.mem_cons_of_mem _ later, past.unvisit⟩

/-- **A search counts what it can reach**, each entry once. -/
theorem countFrom_eq_sum (index : TagIndex) (visited pending : List String) (met : Finset String)
    (all : ∀ other, other ∈ met ↔ ∃ start ∈ pending, index.Reaches visited start other) :
    index.countFrom visited pending = ∑ other ∈ met, index.countAt other := by
  fun_induction countFrom index visited pending generalizing met with
  | case1 visited =>
      have none : met = ∅ := Finset.eq_empty_of_forall_notMem fun other => by simp [all]
      rw [none, Finset.sum_empty]
  | case2 visited path rest seen ih =>
      refine ih met fun other => (all other).trans ?_
      have not_from : ¬ index.Reaches visited path other := fun reaches =>
        reaches.2.1 (List.contains_iff_mem.mp seen)
      simp [not_from]
  | case3 visited path rest new missing ih =>
      refine ih met fun other => (all other).trans ?_
      have not_from : ¬ index.Reaches visited path other := fun reaches =>
        find?_eq_none.mp missing reaches.1
      simp [not_from]
  | case4 visited path rest new node found ih =>
      have fresh : path ∉ visited := fun old => new (List.contains_iff_mem.mpr old)
      have here : path ∈ met :=
        (all path).mpr ((exists_reaches_cons fresh found rest).mpr (.inl rfl))
      have count : index.countAt path = node.directCount := by simp [countAt, found]
      rw [← Finset.add_sum_erase met index.countAt here, count]
      refine congrArg (node.directCount + ·) (ih _ fun other => ?_)
      rw [Finset.mem_erase, all, exists_reaches_cons fresh found]
      refine ⟨fun counted => counted.2.resolve_left counted.1, fun reached => ?_⟩
      refine ⟨?_, .inr reached⟩
      rintro rfl
      obtain ⟨start, -, -, outside, links⟩ := reached
      rcases links.cases_tail with same | ⟨_, -, -, outside'⟩
      · exact outside (same ▸ List.mem_cons_self)
      · exact outside' List.mem_cons_self

/-- What a search reaches are finitely many entries. -/
theorem exists_met (index : TagIndex) (visited pending : List String) :
    ∃ met : Finset String,
      ∀ other, other ∈ met ↔ ∃ start ∈ pending, index.Reaches visited start other := by
  classical
  refine ⟨index.keys.toFinset.filter
    fun other => ∃ start ∈ pending, index.Reaches visited start other, fun other => ?_⟩
  rw [Finset.mem_filter, List.mem_toFinset]
  exact ⟨fun met => met.2, fun reached => ⟨reached.choose_spec.2.mem_keys, reached⟩⟩

/-! ### Forests -/

/-- Links that lead to longer paths, and to each of them from one path at most. -/
structure IsForest (index : TagIndex) : Prop where
  /-- Links lead to longer paths. -/
  longer : ∀ {path child}, index.IsLink path child → path.toList.length < child.toList.length
  /-- No two links lead to one path. -/
  unique : ∀ {path path' child}, index.IsLink path child → index.IsLink path' child → path = path'

namespace IsForest

variable {index : TagIndex} {path other child : String} {pending visited : List String}
variable {node : TagNode}

/-- Links in a forest lead to paths that are no shorter. -/
theorem length_le (forest : index.IsForest) (links : ReflTransGen index.IsLink path other) :
    path.toList.length ≤ other.toList.length := by
  induction links with
  | refl => exact le_rfl
  | tail _ link ih => exact ih.trans (forest.longer link).le

/-- Of two paths that lead to the same one, one leads to the other. -/
theorem comparable (forest : index.IsForest) {path' : String}
    (links : ReflTransGen index.IsLink path other)
    (links' : ReflTransGen index.IsLink path' other) :
    ReflTransGen index.IsLink path path' ∨ ReflTransGen index.IsLink path' path := by
  have unique : Relator.RightUnique (Function.swap index.IsLink) :=
    fun _ _ _ link link' => forest.unique link link'
  have either := ReflTransGen.total_of_right_unique unique (reflTransGen_swap.mpr links)
    (reflTransGen_swap.mpr links')
  exact either.symm.imp reflTransGen_swap.mp reflTransGen_swap.mp

/-- **Totals add up** where no path leads to another one: nothing is counted for two of them. -/
theorem sum_totalCount (forest : index.IsForest) (distinct : pending.Nodup)
    (apart : ∀ path ∈ pending, ∀ other ∈ pending, ¬ TransGen index.IsLink path other) :
    (pending.map index.totalCount).sum = index.countFrom [] pending := by
  induction pending with
  | nil => simp [countFrom]
  | cons path rest ih =>
      obtain ⟨other_than, distinct⟩ := List.nodup_cons.mp distinct
      have later := ih distinct fun path member other member' =>
        apart path (List.mem_cons_of_mem _ member) other (List.mem_cons_of_mem _ member')
      obtain ⟨here, all_here⟩ := exists_met index [] [path]
      obtain ⟨there, all_there⟩ := exists_met index [] rest
      have disjoint : Disjoint here there := by
        rw [Finset.disjoint_left]
        intro other from_here from_there
        obtain ⟨start, member, reaches⟩ := (all_here other).mp from_here
        obtain rfl := List.mem_singleton.mp member
        obtain ⟨start', member', reaches'⟩ := (all_there other).mp from_there
        have known : start' ∈ start :: rest := List.mem_cons_of_mem _ member'
        rcases forest.comparable reaches.links reaches'.links with down | up
        · rcases reflTransGen_iff_eq_or_transGen.mp down with rfl | below
          · exact other_than member'
          · exact apart start List.mem_cons_self start' known below
        · rcases reflTransGen_iff_eq_or_transGen.mp up with rfl | below
          · exact other_than member'
          · exact apart start' known start List.mem_cons_self below
      have both : ∀ other, other ∈ here ∪ there ↔
          ∃ start ∈ path :: rest, index.Reaches [] start other := by
        intro other
        rw [Finset.mem_union, all_here, all_there]
        simp
      rw [List.map_cons, List.sum_cons, later, totalCount, countFrom_eq_sum index _ _ _ all_here,
        countFrom_eq_sum index _ _ _ all_there, countFrom_eq_sum index _ _ _ both,
        Finset.sum_union disjoint]

/-- Having visited a path makes no difference to a search from its children. -/
theorem countFrom_children (forest : index.IsForest) (found : index.find? path = some node) :
    index.countFrom [path] node.childPaths = index.countFrom [] node.childPaths := by
  obtain ⟨met, all⟩ := exists_met index [] node.childPaths
  rw [countFrom_eq_sum index _ _ _ all]
  refine countFrom_eq_sum index _ _ _ fun other => (all other).trans ⟨?_, ?_⟩
  · rintro ⟨start, member, reaches⟩
    have link : index.IsLink path start := ⟨reaches.1, node, found, member⟩
    -- Everything on the way is at least as long as the child, so the path is not met again.
    have away : ∀ {other}, ReflTransGen index.IsLink start other → other ∉ [path] := by
      intro other links again
      obtain rfl := List.mem_singleton.mp again
      exact absurd (forest.longer link) (not_lt.mpr (forest.length_le links))
    refine ⟨start, member, reaches.1, away .refl, ?_⟩
    have links := reaches.links
    clear reaches
    induction links with
    | refl => exact .refl
    | tail links link ih => exact ih.tail ⟨link, away (links.tail link)⟩
  · rintro ⟨start, member, reaches⟩
    exact ⟨start, member, reaches.unvisit⟩

/-- The total of an entry is its own count and the totals of its children. -/
theorem totalCount_eq_add (forest : index.IsForest) (found : index.find? path = some node)
    (distinct : node.childPaths.Nodup) (known : ∀ child ∈ node.childPaths, child ∈ index.keys) :
    index.totalCount path = node.directCount + (node.childPaths.map index.totalCount).sum := by
  have links : ∀ child ∈ node.childPaths, index.IsLink path child := fun child member =>
    ⟨known child member, node, found, member⟩
  have apart : ∀ child ∈ node.childPaths, ∀ other ∈ node.childPaths,
      ¬ TransGen index.IsLink child other := by
    intro child member other member' below
    obtain ⟨last, way, link⟩ := TransGen.tail'_iff.mp below
    obtain rfl := forest.unique link (links other member')
    exact absurd (forest.longer (links child member)) (not_lt.mpr (forest.length_le way))
  have start : index.totalCount path = node.directCount +
      index.countFrom [path] (node.childPaths ++ []) := by
    rw [totalCount, countFrom, dif_neg (by simp)]
    split
    · next missing => cases missing.symm.trans found
    · next node' found' =>
        obtain rfl := Option.some.inj (found.symm.trans found')
        rfl
  rw [start, List.append_nil, forest.countFrom_children found,
    forest.sum_totalCount distinct apart]

/-- Every entry is below a root, or is one. -/
theorem exists_root (forest : index.IsForest) (known : path ∈ index.keys) :
    ∃ root ∈ index.keys, (∀ above, ¬ index.IsLink above root) ∧
      ReflTransGen index.IsLink root path := by
  induction size : path.toList.length using Nat.strong_induction_on generalizing path with
  | _ size ih =>
      by_cases top : ∀ above, ¬ index.IsLink above path
      · exact ⟨path, known, top, .refl⟩
      · obtain ⟨above, link⟩ := not_forall_not.mp top
        obtain ⟨root, known', top', links⟩ :=
          ih _ (size ▸ forest.longer link) link.mem_keys rfl
        exact ⟨root, known', top', links.tail link⟩

/-- The totals of the roots make up the counts of all entries. -/
theorem sum_totalCount_roots (forest : index.IsForest) (once : index.keys.Nodup)
    {roots : List String} (distinct : roots.Nodup)
    (all : ∀ path, path ∈ roots ↔ path ∈ index.keys ∧ ∀ above, ¬ index.IsLink above path) :
    (roots.map index.totalCount).sum = (index.keys.map index.countAt).sum := by
  have apart : ∀ path ∈ roots, ∀ other ∈ roots, ¬ TransGen index.IsLink path other := by
    intro path _ other member below
    obtain ⟨last, -, link⟩ := TransGen.tail'_iff.mp below
    exact ((all other).mp member).2 last link
  rw [forest.sum_totalCount distinct apart, ← List.sum_toFinset _ once]
  refine countFrom_eq_sum index _ _ _ fun other => ?_
  rw [List.mem_toFinset]
  constructor
  · intro known
    obtain ⟨root, known', top, links⟩ := forest.exists_root known
    exact ⟨root, (all root).mpr ⟨known', top⟩, reaches_nil.mpr ⟨known', links⟩⟩
  · rintro ⟨start, -, reaches⟩
    exact reaches.mem_keys

end IsForest

/-! ### The totals of an index -/

/-- The links of an index lead from parents. -/
theorem isLink_withLinks (sorted : index.Sorted)
    (trimmed : ∀ path ∈ index.keys, TagPath.IsTrimmed path) :
    index.withLinks.IsLink path child ↔
      child ∈ index.keys ∧ index.parentOf child = some path := by
  rw [IsLink, keys_withLinks]
  constructor
  · rintro ⟨known, node, found, member⟩
    rw [find?_withLinks, Option.map_eq_some_iff] at found
    obtain ⟨old, found, rfl⟩ := found
    have known' := mem_keys_iff.mpr ⟨old, found⟩
    exact ⟨known, (mem_childrenOf_iff_parentOf sorted trimmed known' known).mp member⟩
  · rintro ⟨known, parent⟩
    have known' := (parentOf_eq_some.mp parent).2
    obtain ⟨old, found⟩ := mem_keys_iff.mp known'
    refine ⟨known, _, (find?_withLinks index path).trans (congrArg _ found), ?_⟩
    exact (mem_childrenOf_iff_parentOf sorted trimmed known' known).mpr parent

/-- The links of an index form a forest. -/
theorem isForest_withLinks (sorted : index.Sorted)
    (trimmed : ∀ path ∈ index.keys, TagPath.IsTrimmed path) : index.withLinks.IsForest := by
  refine ⟨fun {path child} link => ?_, fun {path path' child} link link' => ?_⟩
  · have parent := ((isLink_withLinks sorted trimmed).mp link).2
    obtain ⟨-, last, whole, -⟩ := TagPath.parent?_eq_some (parentOf_eq_some.mp parent).1
    simp [whole]
  · have parent := ((isLink_withLinks sorted trimmed).mp link).2
    have parent' := ((isLink_withLinks sorted trimmed).mp link').2
    exact Option.some.inj (parent.symm.trans parent')

/-- The counts of the paths of an index are those in its entries. -/
theorem map_countAt_keys (sorted : index.Sorted) :
    index.keys.map index.countAt = index.map (·.2.directCount) := by
  rw [keys, List.map_map]
  refine List.map_congr_left fun entry member => ?_
  have found := sorted.mem_iff.mp (show (entry.1, entry.2) ∈ index from member)
  simp [countAt, found]

/-- The total that is stored is the total that is counted. -/
theorem totalAt_withHierarchy (known : path ∈ index.keys) :
    index.withHierarchy.totalAt path = index.withLinks.totalCount path := by
  obtain ⟨old, found⟩ := mem_keys_iff.mp known
  simp [totalAt, find?_withHierarchy, found]

/-- The total of an entry is made up of its own count and the totals of its children. -/
theorem totalCount_of_find?_withHierarchy (sorted : index.Sorted)
    (trimmed : ∀ path ∈ index.keys, TagPath.IsTrimmed path)
    (found : index.withHierarchy.find? path = some node) :
    (∀ child ∈ node.childPaths, child ∈ index.withHierarchy.keys) ∧
      node.totalCount =
        node.directCount + (node.childPaths.map index.withHierarchy.totalAt).sum := by
  rw [find?_withHierarchy, Option.map_eq_some_iff] at found
  obtain ⟨old, found, rfl⟩ := found
  have known : ∀ child ∈ index.childrenOf path, child ∈ index.keys := fun child member =>
    ((mem_childrenOf sorted).mp member).1
  have distinct : (index.childrenOf path).Nodup := by
    rw [childrenOf_eq_filter sorted]
    exact (sorted.imp ne_of_lt).filter _
  have totals : (index.childrenOf path).map index.withHierarchy.totalAt =
      (index.childrenOf path).map index.withLinks.totalCount :=
    List.map_congr_left fun child member => totalAt_withHierarchy (known child member)
  have linked : index.withLinks.find? path = some
      { old with childPaths := index.childrenOf path, parentPath := index.parentOf path } := by
    rw [find?_withLinks, found]
    rfl
  have total := (isForest_withLinks sorted trimmed).totalCount_eq_add linked distinct
    fun child member => (keys_withLinks index).symm ▸ known child member
  refine ⟨fun child member => (keys_withHierarchy index).symm ▸ known child member, ?_⟩
  rw [totals]
  exact total

/-- The totals of the entries without a parent make up the counts of all entries. -/
theorem sum_totalCount_withHierarchy (sorted : index.Sorted)
    (trimmed : ∀ path ∈ index.keys, TagPath.IsTrimmed path) :
    ((index.withHierarchy.filter (·.2.parentPath.isNone)).map (·.2.totalCount)).sum =
      (index.withHierarchy.map (·.2.directCount)).sum := by
  have sorted' : index.withLinks.Sorted := by rwa [Sorted, keys_withLinks]
  let roots := index.keys.filter fun path => (index.parentOf path).isNone
  have all : ∀ path, path ∈ roots ↔
      path ∈ index.withLinks.keys ∧ ∀ above, ¬ index.withLinks.IsLink above path := by
    intro path
    rw [List.mem_filter, keys_withLinks, Option.isNone_iff_eq_none,
      Option.eq_none_iff_forall_ne_some]
    refine and_congr_right fun known => forall_congr' fun above => ?_
    rw [isLink_withLinks sorted trimmed, and_iff_right known]
  have top := (isForest_withLinks sorted trimmed).sum_totalCount_roots (sorted'.imp ne_of_lt)
    ((sorted.imp ne_of_lt).filter _) all
  have at_roots : (index.withHierarchy.filter (·.2.parentPath.isNone)).map (·.2.totalCount) =
      roots.map index.withLinks.totalCount := by
    simp [withHierarchy_eq_relinked, relinked, roots, keys, List.filter_map, Function.comp_def]
  have counts : index.withHierarchy.map (·.2.directCount) =
      index.withLinks.map (·.2.directCount) := by
    simp [withHierarchy, Function.comp_def]
  rw [at_roots, top, map_countAt_keys sorted', counts]

/-- **Totals lose nothing and count nothing twice.** In an index of canonical paths, the total of
every entry is its own count and the totals of its children, all of which are entries. The totals of
the entries without a parent make up the counts of all entries. -/
theorem totals_add_up (sorted : index.Sorted)
    (canonical : ∀ path ∈ index.keys, path = "/" ∨ TagPath.IsCanonical path) :
    (∀ path node, index.withHierarchy.find? path = some node →
      (∀ child ∈ node.childPaths, child ∈ index.withHierarchy.keys) ∧
      node.totalCount =
        node.directCount + (node.childPaths.map index.withHierarchy.totalAt).sum) ∧
    ((index.withHierarchy.filter (·.2.parentPath.isNone)).map (·.2.totalCount)).sum =
      (index.withHierarchy.map (·.2.directCount)).sum := by
  have trimmed : ∀ path ∈ index.keys, TagPath.IsTrimmed path := by
    intro path known
    rcases canonical path known with rfl | canonical
    · decide
    · exact canonical.isTrimmed
  exact ⟨fun path node found => totalCount_of_find?_withHierarchy sorted trimmed found,
    sum_totalCount_withHierarchy sorted trimmed⟩

/-- A path whose parent is missing counts for itself, and one whose parent is there for both. -/
theorem totals_add_up_gap :
    let index := selfLinked "/" "/a" "/a/b" "/a/c/d"
    index.Sorted ∧ (∀ path ∈ index.keys, path = "/" ∨ TagPath.IsCanonical path) ∧
      (∃ node, index.withHierarchy.find? "/a" = some node ∧ node.childPaths = ["/a/b"] ∧
        node.totalCount = 2 + index.withHierarchy.totalAt "/a/b") ∧
      ((index.withHierarchy.filter (·.2.parentPath.isNone)).map (·.2.totalCount)).sum =
        1 + 2 + 3 + 4 := by
  intro index
  have sorted : index.Sorted := by
    show index.keys.Pairwise (· < ·)
    decide +kernel
  have canonical : ∀ path ∈ index.keys, path = "/" ∨ TagPath.IsCanonical path := by
    simp only [index, selfLinked, keys, List.map_cons, List.map_nil, List.forall_mem_cons]
    refine ⟨.inl trivial, .inr ⟨[['a']], ?_⟩, .inr ⟨[['a'], ['b']], ?_⟩,
      .inr ⟨[['a'], ['c'], ['d']], ?_⟩, by simp⟩
    all_goals simp [TagPath.IsSegment]
  have children : index.childrenOf "/a" = ["/a/b"] := by decide +kernel
  obtain ⟨entries, roots⟩ := totals_add_up sorted canonical
  refine ⟨sorted, canonical, ⟨_, find?_withHierarchy index "/a", children, ?_⟩, roots⟩
  have total := (entries "/a" _ (find?_withHierarchy index "/a")).2
  simpa [children] using total

end TaggedMemos.TagIndex
