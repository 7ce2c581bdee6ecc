import Mathlib.Data.List.Nodup
import TaggedMemos.Proofs.Collection

/-!
# The Origin of a Memo

The identifier, the owner, the parent and the time of creation of a memo are fixed when it is
created. A change of text or payload keeps the origins of all memos, and a removal leaves some of
them out, so that what holds of the origins of a collection and of every part of them outlives
both. Only a new memo has to be looked at.

A collection is orderly when identifiers are distinct, when a comment comes after the memo that it
is on, and when it has the owner of that memo. The memo that a comment is on may be missing.

## Main results

* `Orderly.of_origins`: a part of an orderly collection is orderly.
* `Orderly.append`: what a new memo has to meet.
* `Orderly.eq_of_id`: the memos of an orderly collection are told apart by their identifiers.
-/

namespace TaggedMemos

/-- What is fixed when a memo is created. -/
structure Origin where
  /-- The identifier. -/
  id : MemoId
  /-- The owner. -/
  creator : UserId
  /-- The memo that this one is a comment on. -/
  parent : Option MemoId
  /-- When the memo was created. -/
  created : Timestamp
  deriving DecidableEq, Repr

/-- The origin of a memo. -/
def Memo.origin (m : Memo) : Origin :=
  ⟨m.id, m.creator, m.parent, m.created⟩

namespace Collection

variable {memos memos' : Collection} {id : MemoId} {user : UserId} {m m' : Memo}

/-- The origins of a collection, in order. -/
def origins (memos : Collection) : List Origin :=
  memos.map Memo.origin

/-- The origins have the identifiers of the memos. -/
theorem map_id_origins (memos : Collection) : (origins memos).map Origin.id = ids memos := by
  simp [origins, ids, Memo.origin]

/-- Two collections have their origins one after the other. -/
theorem origins_append (memos memos' : Collection) :
    origins (memos ++ memos') = origins memos ++ origins memos' :=
  List.map_append

/-- A change of text or payload keeps all origins. -/
theorem origins_modify (change : Change) (now : Timestamp) :
    origins (memos.modify id (change.apply now)) = origins memos :=
  map_modify fun _ _ => rfl

/-- A removal leaves some origins out. -/
theorem origins_without : (origins (memos.without id)).Sublist (origins memos) :=
  List.filter_sublist.map _

/-- A memo of a part of a collection has the origin of some memo of the whole. -/
theorem exists_origin_eq (part : (origins memos').Sublist (origins memos)) (member : m' ∈ memos') :
    ∃ m ∈ memos, m.id = m'.id ∧ m.creator = m'.creator ∧ m.parent = m'.parent := by
  have known : m'.origin ∈ origins memos := part.subset (List.mem_map_of_mem member)
  obtain ⟨m, member, same⟩ := List.mem_map.mp known
  exact ⟨m, member, congrArg Origin.id same, congrArg Origin.creator same,
    congrArg Origin.parent same⟩

/-! ### Owners -/

/-- Every memo with an identifier belongs to a user. -/
def Owns (user : UserId) (id : MemoId) (memos : Collection) : Prop :=
  ∀ m ∈ memos, m.id = id → m.creator = user

/-- Who owns an identifier owns it also where some memos are gone. -/
theorem Owns.of_origins (owns : Owns user id memos)
    (part : (origins memos').Sublist (origins memos)) : Owns user id memos' := by
  intro m' member named
  obtain ⟨m, member, sameId, sameCreator, -⟩ := exists_origin_eq part member
  rw [← sameCreator]
  exact owns m member (sameId.trans named)

/-! ### Orderly collections -/

/-- Identifiers are distinct, and every comment comes after the memo that it is on and has its
owner. -/
structure Orderly (memos : Collection) : Prop where
  /-- No two memos share an identifier. -/
  distinct : (ids memos).Nodup
  /-- No memo is a comment on itself. -/
  proper : ∀ m ∈ memos, m.parent ≠ some m.id
  /-- No memo is a comment on a later one. -/
  later : memos.Pairwise fun m m' => m.parent ≠ some m'.id
  /-- A comment has the owner of the memo that it is on. -/
  owned : ∀ m ∈ memos, ∀ parent ∈ memos, m.parent = some parent.id → m.creator = parent.creator

namespace Orderly

/-- An empty collection is in order. -/
theorem empty : Orderly [] :=
  ⟨List.nodup_nil, by simp, .nil, by simp⟩

/-- Memos with the same identifier are the same memo. -/
theorem eq_of_id (orderly : Orderly memos) (member : m ∈ memos) (member' : m' ∈ memos)
    (same : m.id = m'.id) : m = m' :=
  List.inj_on_of_nodup_map orderly.distinct member member' same

/-- In a collection in order, the identifier of a memo belongs to its creator. -/
theorem owns (orderly : Orderly memos) (member : m ∈ memos) : Owns m.creator m.id memos := by
  intro m' member' same
  rw [orderly.eq_of_id member' member same]

/-- A comment and the memo that it is on are not comments on each other. -/
theorem parent_ne (orderly : Orderly memos) (member : m ∈ memos) (member' : m' ∈ memos)
    (below : m'.parent = some m.id) : m.parent ≠ some m'.id := by
  -- Of two memos at most one comes after the other one.
  let apart := fun m m' : Memo => m.parent ≠ some m'.id ∨ m'.parent ≠ some m.id
  have either : apart m m' := List.Pairwise.forall_of_forall_of_flip
    (fun x known => .inl (orderly.proper x known)) (orderly.later.imp .inl)
    (orderly.later.imp .inr) member member'
  exact either.resolve_right fun above => above below

/-- A part of an orderly collection is orderly. -/
theorem of_origins (orderly : Orderly memos) (part : (origins memos').Sublist (origins memos)) :
    Orderly memos' where
  distinct := by
    rw [← map_id_origins]
    exact (map_id_origins memos ▸ orderly.distinct).sublist (part.map _)
  proper := by
    intro m' member
    obtain ⟨m, member, sameId, -, sameParent⟩ := exists_origin_eq part member
    rw [← sameId, ← sameParent]
    exact orderly.proper m member
  later := by
    have before : (origins memos).Pairwise fun o o' => o.parent ≠ some o'.id :=
      List.pairwise_map.mpr orderly.later
    exact List.pairwise_map.mp (before.sublist part)
  owned := by
    intro m' member parent' memberParent below
    obtain ⟨m, member, -, sameCreator, sameParent⟩ := exists_origin_eq part member
    obtain ⟨parent, memberParent, sameId, sameCreator', -⟩ := exists_origin_eq part memberParent
    rw [← sameCreator, ← sameCreator']
    exact orderly.owned m member parent memberParent (by rw [sameParent, sameId, below])

/-- A new memo may be added at the end if its identifier is not in use and no comment left behind
refers to it, and if it has the owner of the memo that it is on. -/
theorem append (orderly : Orderly memos) (fresh : memos.hasId m.id = false)
    (unborn : ∀ x ∈ memos, x.parent ≠ some m.id)
    (below : ∀ id, m.parent = some id → ∃ parent ∈ memos, parent.id = id ∧
      parent.creator = m.creator) : Orderly (memos ++ [m]) where
  distinct := nodup_ids_append orderly.distinct fresh
  proper := by
    intro x member
    rcases List.mem_append.mp member with old | new
    · exact orderly.proper x old
    · obtain rfl := List.mem_singleton.mp new
      intro self
      obtain ⟨parent, known, named, -⟩ := below _ self
      rw [hasId_iff.mpr (named ▸ List.mem_map_of_mem known)] at fresh
      cases fresh
  later := by
    rw [List.pairwise_append]
    refine ⟨orderly.later, List.pairwise_singleton _ _, fun x old y new => ?_⟩
    rw [List.mem_singleton.mp new]
    exact unborn x old
  owned := by
    intro x member parent memberParent above
    rcases List.mem_append.mp memberParent with oldParent | newParent
    · rcases List.mem_append.mp member with old | new
      · exact orderly.owned x old parent oldParent above
      · rw [List.mem_singleton.mp new] at above ⊢
        obtain ⟨parent', known, named, own⟩ := below _ above
        rw [orderly.eq_of_id oldParent known named.symm, own]
    · rw [List.mem_singleton.mp newParent] at above ⊢
      rcases List.mem_append.mp member with old | new
      · exact absurd above (unborn x old)
      · rw [List.mem_singleton.mp new]

end Orderly

end Collection

end TaggedMemos
