import TaggedMemos.Proofs.Step

/-!
# Comments Left Behind

A comment goes away together with the memo that it is on. A comment may be made on a comment, but
a deletion goes only one level down: it removes a memo and the comments on it, and leaves the
comments on those behind, with a parent that is not stored any more (`deletion_leaves_replies`).
That is the only way in which a comment can lose its parent.

## Main results

* `Step.parent_kept`: what becomes of the memo that a comment is on.
* `attached_states_iff`: no comment is left behind in a history exactly if no memo is deleted while
  a comment on it has comments.
-/

namespace TaggedMemos

open Collection

/-- No comment is left behind: the memo that it is on is stored as well. -/
def Collection.Attached (memos : Collection) : Prop :=
  ∀ m ∈ memos, ∀ id ∈ m.parent, id ∈ ids memos

instance (memos : Collection) : Decidable memos.Attached :=
  inferInstanceAs (Decidable (∀ m ∈ memos, ∀ id ∈ m.parent, id ∈ ids memos))

/-- After a step, the memo that a comment is on is stored, or it was not stored before, or it was
itself a comment on a memo that the step removes. -/
theorem Step.parent_kept {call : Call} {memos memos' : Collection} {m : Memo} {id : MemoId}
    (step : Step call memos memos') (member : m ∈ memos') (above : m.parent = some id) :
    id ∈ ids memos' ∨ (∃ m ∈ memos, m.parent = some id ∧ id ∉ ids memos) ∨
      ∃ removed, memos' = memos.without removed ∧ m ∈ memos ∧
        ∃ parent ∈ memos, parent.id = id ∧ parent.parent = some removed := by
  by_cases known : id ∈ ids memos
  · cases step with
    | add _ _ _ _ _ =>
        rw [ids, List.map_append]
        exact .inl (List.mem_append_left _ known)
    | change _ _ =>
        rw [ids_modify]
        exact .inl known
    | @remove removed _ _ _ =>
        obtain ⟨old, stays⟩ := List.mem_filter.mp member
        rw [Bool.and_eq_true, bne_iff_ne, bne_iff_ne, above] at stays
        obtain ⟨parent, stored, named⟩ := List.mem_map.mp known
        by_cases goes : parent.parent = some removed
        · exact .inr (.inr ⟨removed, rfl, old, parent, stored, named, goes⟩)
        · have other : parent.id ≠ removed := fun same => stays.2 (by rw [← named, same])
          refine .inl (List.mem_map.mpr ⟨parent, List.mem_filter.mpr ⟨stored, ?_⟩, named⟩)
          rw [Bool.and_eq_true, bne_iff_ne, bne_iff_ne]
          exact ⟨other, goes⟩
  · -- The memo was not stored before, so the comment was left behind earlier.
    have before : ∃ m ∈ memos, m.parent = some id := by
      cases step with
      | add _ _ _ _ below =>
          rcases List.mem_append.mp member with old | new
          · exact ⟨m, old, above⟩
          · obtain rfl := List.mem_singleton.mp new
            obtain ⟨parent, stored, rfl, -⟩ := below id above
            exact absurd (List.mem_map_of_mem stored) known
      | @change id' change now _ _ =>
          have part : (origins (memos.modify id' (change.apply now))).Sublist (origins memos) := by
            rw [origins_modify]
          obtain ⟨m₀, old, -, -, sameParent⟩ := exists_origin_eq part member
          exact ⟨m₀, old, sameParent.trans above⟩
      | remove _ _ _ => exact ⟨m, (List.mem_filter.mp member).1, above⟩
    obtain ⟨m₀, old, above⟩ := before
    exact .inr (.inl ⟨m₀, old, above, known⟩)

/-- **Comments left behind.** In a history that gives out no identifier twice, no comment is left
behind exactly if no memo is deleted, by whatever request, while a comment on it has comments. What
is left behind is never a comment on a memo that is no comment itself. -/
theorem attached_states_iff {calls : List Call} (distinct : (newIds calls).Nodup) :
    ((∀ s ∈ states [] calls, s.Attached) ↔
      ∀ s s' id, [s, s'] <:+: states [] calls → s' = s.without id →
        ∀ comment ∈ s, comment.parent = some id →
          ∀ reply ∈ s, reply.parent ≠ some comment.id) ∧
    ∀ s ∈ states [] calls, ∀ m ∈ s, ∀ id, m.parent = some id → id ∈ ids s ∨
      ∃ s' ∈ states [] calls, ∃ parent ∈ s', parent.id = id ∧ parent.isComment = true := by
  refine ⟨⟨fun attached s s' id consecutive gone comment stored below reply stored' above => ?_,
    fun flat => ?_⟩, ?_⟩
  · obtain ⟨known, known'⟩ : s ∈ states [] calls ∧ s' ∈ states [] calls :=
      ⟨consecutive.subset (by simp), consecutive.subset (by simp)⟩
    have orderly := orderly_of_mem_states distinct s known
    -- The reply stays, since it is neither the memo deleted nor a comment on it.
    have stays : reply ∈ s' := by
      rw [gone]
      refine List.mem_filter.mpr ⟨stored', ?_⟩
      rw [Bool.and_eq_true, bne_iff_ne, bne_iff_ne]
      refine ⟨fun same => ?_, fun same => ?_⟩
      · exact orderly.parent_ne stored stored' above (same ▸ below)
      · exact orderly.proper comment stored (by rw [below, ← above, same])
    obtain ⟨parent, stored'', named⟩ := List.mem_map.mp (attached s' known' reply stays _ above)
    rw [gone] at stored''
    obtain ⟨old, kept⟩ := List.mem_filter.mp stored''
    rw [orderly.eq_of_id old stored named, Bool.and_eq_true, bne_iff_ne, bne_iff_ne] at kept
    exact kept.2 below
  · refine forall_states_of_step distinct (by simp [Attached]) ?_
    intro call s s' consecutive step attached m member id above
    rcases step.parent_kept member above with
      kept | ⟨m₀, old, above, gone⟩ | ⟨removed, after, old, parent, stored, named, below⟩
    · exact kept
    · exact absurd (attached m₀ old id above) gone
    · exact absurd (named ▸ above) (flat s s' removed consecutive after parent stored below m old)
  · refine forall_states_of_step distinct (by simp) ?_
    intro call s s' consecutive step before m member id above
    rcases step.parent_kept member above with
      kept | ⟨m₀, old, above, gone⟩ | ⟨removed, -, -, parent, stored, named, below⟩
    · exact .inl kept
    · exact .inr ((before m₀ old id above).resolve_left gone)
    · exact .inr ⟨s, consecutive.subset (by simp), parent, stored, named, by
        rw [Memo.isComment, below, Option.isSome_some]⟩

/-- A history of the user 1 that makes the memo 1, a comment 2 on it and a comment 3 on that, and
then goes on. -/
def discussion (requests : List Request) : List Call :=
  let at' := fun (n : Nat) => ({ user := 1, freshId := .ofNat n, now := default } : Circumstances)
  [⟨at' 1, .createMemo "a #t" none⟩,
    ⟨at' 2, .createMemo "b" (some (MemoName.ofId (.ofNat 1)))⟩,
    ⟨at' 3, .createMemo "c" (some (MemoName.ofId (.ofNat 2)))⟩] ++
  requests.map fun request => ⟨at' 4, request⟩

/-- Nothing is left behind where the innermost comments are deleted first. -/
theorem attached_states_iff_innermost :
    let calls := discussion [.deleteMemo (MemoName.ofId (.ofNat 2)), .deleteTag "t" .deleteMemos]
    (newIds calls).Nodup ∧ (states [] calls).getLast? = some [] ∧
      ∀ s s' id, [s, s'] <:+: states [] calls → s' = s.without id →
        ∀ comment ∈ s, comment.parent = some id →
          ∀ reply ∈ s, reply.parent ≠ some comment.id := by
  intro calls
  have distinct : (newIds calls).Nodup := by decide
  have attached : ∀ s ∈ states [] calls, s.Attached := by decide +kernel
  exact ⟨distinct, by decide +kernel, (attached_states_iff distinct).1.mp attached⟩

/-- Each way of deleting a memo leaves the comments on its comments behind. -/
theorem deletion_leaves_replies :
    let leaves := fun request => (newIds (discussion [request])).Nodup ∧
      ¬ ∀ s ∈ states [] (discussion [request]), s.Attached
    leaves (.deleteMemo (MemoName.ofId (.ofNat 1))) ∧ leaves (.deleteTag "t" .deleteMemos) ∧
      leaves (.batchDelete "t" false false) := by
  decide +kernel

end TaggedMemos
