import Mathlib.Algebra.BigOperators.Group.Finset.Sigma
import Mathlib.Algebra.GroupWithZero.Nat
import TaggedMemos.Proofs.Index

/-!
# Memos and the Paths They Carry

An index is put together tag by tag, from memos in any order: the same memo may come up again, a tag
may be recorded twice, be empty, or have no slash in front. What becomes of this is told without the
order of insertion. There is an entry for each path that some tag stands for, it names the memos
that carry the path, and counts them. The counts of all entries together are the number of
memberships, which are the pairs of a memo and a path that it carries.

The sum of the counts is not the number of tags, since tags may be repeated, and a memo may come up
twice. It is the number of distinct pairs, because each of them is counted in the entry of its path
and in no other one.

## Main results

* `eq_carriedBy_of_mem`: what an entry of an index says.
* `sum_directCount`: the counts of all entries add up to the number of memberships.
* `entries_are_exact`: the index of any memos.
-/

namespace TaggedMemos.TagIndex

variable {memos : List (MemoId × List String)} {path : String} {id : MemoId} {node : TagNode}

/-! ### Memberships -/

/-- The pairs of a memo and a path that it carries, once for each tag that stands for the path. -/
def memberships (memos : List (MemoId × List String)) : List (MemoId × String) :=
  memos.flatMap fun memo => (pathsOfTags memo.2).map (memo.1, ·)

/-- The carriers of a path are the memos that have it for one of their tags. -/
theorem mem_carriers :
    id ∈ carriers memos path ↔ ∃ memo ∈ memos, path ∈ pathsOfTags memo.2 ∧ memo.1 = id := by
  rw [carriers, List.mem_eraseDups, List.mem_map]
  simp only [List.mem_filter, decide_eq_true_iff, and_assoc]

/-- No memo is listed twice among the carriers. -/
theorem nodup_carriers (memos : List (MemoId × List String)) (path : String) :
    (carriers memos path).Nodup :=
  nodup_eraseDups _

/-- The memos that carry a path are those in a membership with it. -/
theorem mem_memberships : (id, path) ∈ memberships memos ↔ id ∈ carriers memos path := by
  rw [mem_carriers, memberships, List.mem_flatMap]
  refine exists_congr fun memo => and_congr_right fun _ => ?_
  rw [List.mem_map]
  constructor
  · rintro ⟨path', carried, same⟩
    obtain ⟨rfl, rfl⟩ := Prod.mk.inj same
    exact ⟨carried, rfl⟩
  · rintro ⟨carried, rfl⟩
    exact ⟨path, carried, rfl⟩

/-- The memberships with one path are as many as the memos that carry it. -/
theorem card_memberships_with (memos : List (MemoId × List String)) (path : String) :
    ((memberships memos).toFinset.filter (·.2 = path)).card = (carriers memos path).length := by
  have paired : (memberships memos).toFinset.filter (·.2 = path) =
      (carriers memos path).toFinset.image (·, path) := by
    ext ⟨id, path'⟩
    rw [Finset.mem_filter, List.mem_toFinset, mem_memberships, Finset.mem_image]
    constructor
    · rintro ⟨carried, rfl⟩
      exact ⟨id, List.mem_toFinset.mpr carried, rfl⟩
    · rintro ⟨id', carried, same⟩
      obtain ⟨rfl, rfl⟩ := Prod.mk.inj same
      exact ⟨List.mem_toFinset.mp carried, rfl⟩
  have distinct : Function.Injective fun id : MemoId => (id, path) :=
    fun _ _ same => (Prod.mk.inj same).1
  rw [paired, Finset.card_image_of_injective _ distinct,
    List.toFinset_card_of_nodup (nodup_carriers memos path)]

/-! ### Entries -/

/-- **What an entry of an index says**: which memos carry its path, and how many they are. -/
theorem eq_carriedBy_of_mem (member : (path, node) ∈ ofMemos memos) :
    node = .carriedBy path (carriers memos path) := by
  have found := (sorted_ofMemos memos).mem_iff.mp member
  rw [find?_ofMemos, entry] at found
  split at found
  · cases found
  · exact (Option.some.inj found).symm

/-- **The counts of all entries** add up to the number of memberships. -/
theorem sum_directCount (memos : List (MemoId × List String)) :
    ((ofMemos memos).map (·.2.directCount)).sum = (memberships memos).toFinset.card := by
  have counts : (ofMemos memos).map (·.2.directCount) =
      (ofMemos memos).keys.map fun path => (carriers memos path).length := by
    rw [keys, List.map_map]
    refine List.map_congr_left fun entry member => ?_
    rw [eq_carriedBy_of_mem member]
    rfl
  have once : (ofMemos memos).keys.Nodup := (sorted_ofMemos memos).imp fun less => less.ne
  have listed : Set.MapsTo Prod.snd ((memberships memos).toFinset : Set (MemoId × String))
      ((ofMemos memos).keys.toFinset : Set String) := by
    rintro ⟨id, path⟩ member
    rw [Finset.mem_coe, List.mem_toFinset, mem_memberships, mem_carriers] at member
    obtain ⟨memo, known, carried, -⟩ := member
    rw [Finset.mem_coe, List.mem_toFinset, mem_keys_ofMemos]
    exact ⟨memo, known, mem_pathsOfTags.mp carried⟩
  calc ((ofMemos memos).map (·.2.directCount)).sum
      = ∑ path ∈ (ofMemos memos).keys.toFinset, (carriers memos path).length := by
        rw [counts, List.sum_toFinset _ once]
    _ = ∑ path ∈ (ofMemos memos).keys.toFinset,
          ((memberships memos).toFinset.filter (·.2 = path)).card :=
        Finset.sum_congr rfl fun path _ => (card_memberships_with memos path).symm
    _ = (memberships memos).toFinset.card := (Finset.card_eq_sum_card_fiberwise listed).symm

/-- **The index of any memos.** Its paths, in ascending order, are the tags that are not empty, with
a slash in front where they have none. The entry of a path names the memos that carry it, in either
spelling, each once and in the order in which they come first; both its counts are their number, and
it has no links. The counts of all entries add up to the number of distinct pairs of a memo and a
path that it carries. -/
theorem entries_are_exact (memos : List (MemoId × List String)) :
    (ofMemos memos).Sorted ∧
    (∀ path, path ∈ (ofMemos memos).keys ↔
      ∃ memo ∈ memos, ∃ tag ∈ memo.2, tag ≠ "" ∧ path = TagPath.withSlash tag) ∧
    (∀ path node, (path, node) ∈ ofMemos memos →
      node.memoIds = ((memos.filter fun memo =>
        ∃ tag ∈ memo.2, tag ≠ "" ∧ path = TagPath.withSlash tag).map (·.1)).eraseDups ∧
      node.memoIds.Nodup ∧
      node = { TagNode.empty path with
        memoIds := node.memoIds
        directCount := node.memoIds.length
        totalCount := node.memoIds.length }) ∧
    ((ofMemos memos).map (·.2.directCount)).sum = (memberships memos).toFinset.card := by
  refine ⟨sorted_ofMemos memos, fun path => mem_keys_ofMemos, fun path node member => ?_,
    sum_directCount memos⟩
  obtain rfl := eq_carriedBy_of_mem member
  refine ⟨?_, nodup_carriers memos path, rfl⟩
  simp only [← mem_pathsOfTags]
  rfl

/-- The first memo comes up again, and the other one has both spellings of a tag, and an empty one.
-/
theorem entries_are_exact_repeated :
    let memos : List (MemoId × List String) :=
      [(.ofNat 2, ["b"]), (.ofNat 1, ["", "/a", "a"]), (.ofNat 2, ["/a", "/b"])]
    ∃ node, ("/a", node) ∈ ofMemos memos ∧ node.memoIds = [.ofNat 1, .ofNat 2] ∧
      node.directCount = 2 ∧ ((ofMemos memos).map (·.2.directCount)).sum = 3 := by
  intro memos
  obtain ⟨-, -, entries, sum⟩ := entries_are_exact memos
  have member : ("/a", TagNode.carriedBy "/a" [.ofNat 1, .ofNat 2]) ∈ ofMemos memos := by
    decide +kernel
  obtain ⟨carried, -⟩ := entries "/a" _ member
  have pairs : (memberships memos).toFinset.card = 3 := by decide +kernel
  exact ⟨_, member, carried.trans (by decide +kernel), rfl, sum.trans pairs⟩

end TaggedMemos.TagIndex
