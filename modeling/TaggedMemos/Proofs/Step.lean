import TaggedMemos.Proofs.Origin
import TaggedMemos.Proofs.Revision

/-!
# The Steps of a Call

Each save of a call adds a memo of the caller, changes one in its place, or removes one together
with the comments on it. Which memos belong to the caller is found out before the first save of a
call, and the later ones rely on it: owners do not change, and in an orderly store no two memos
share an identifier. Only a rebuild changes the memos of everybody.

A store stays orderly as long as no identifier is given out twice. It is not enough that the
identifier of a new memo is in no use when it is stored, for a comment left behind may still refer
to a memo with that identifier.

## Main results

* `Step`: what one save of a call can do.
* `saves_step`: every request saves by steps only.
* `orderly_of_mem_states`: every state of a history is orderly.
* `step_of_consecutive`: two states of a history in a row are the same or a step apart.
-/

namespace TaggedMemos

/-- What one save of a call can do to the collection stored. -/
inductive Step (call : Call) : Collection → Collection → Prop
  /-- A memo of the caller is added at the end. If it is a comment, it is one on a memo of the
  caller. -/
  | add {memos : Collection} {m : Memo} (creates : call.request.creates = true)
      (named : m.id = call.circumstances.freshId) (own : m.creator = call.circumstances.user)
      (fresh : memos.hasId m.id = false)
      (below : ∀ id, m.parent = some id →
        ∃ parent ∈ memos, parent.id = id ∧ parent.creator = m.creator) :
      Step call memos (memos ++ [m])
  /-- A memo is changed, and it belongs to the caller unless the call is a rebuild. -/
  | change {memos : Collection} {id : MemoId} {change : Change} {now : Timestamp}
      (keeps : call.request.creates = false)
      (own : call.request ≠ .rebuildPayloads → memos.Owns call.circumstances.user id) :
      Step call memos (memos.modify id (change.apply now))
  /-- A memo of the caller is removed together with the comments on it. -/
  | remove {memos : Collection} {id : MemoId} (removes : call.request.removes = true)
      (known : memos.hasId id = true) (own : memos.Owns call.circumstances.user id) :
      Step call memos (memos.without id)

/-! ### Every request saves by steps only -/

/-- **Every request saves by steps only.** The memos that it changes or removes belonged to the
caller when it began, and in an orderly store they still do. -/
theorem saves_step (c : Circumstances) (request : Request) :
    Action.Saves c (Step ⟨c, request⟩) Collection.Orderly request.perform (fun _ _ => True) := by
  refine saves_of_revisions fun start orderly trail linked => ?_
  refine linked.relink
    (I := fun s => request.creates = false → (s.origins).Sublist start.origins)
    (fun _ => List.Sublist.refl _) ?_
  intro s s' part revision
  have owns : ∀ m ∈ start, m.creator = c.user → request.creates = false → s.Owns c.user m.id :=
    fun m known own keeps => (own ▸ orderly.owns known).of_origins (part keeps)
  have changed : ∀ id (change : Change) now, request.creates = false →
      (s.modify id (change.apply now)).origins.Sublist start.origins := by
    intro id change now keeps
    rw [Collection.origins_modify]
    exact part keeps
  cases revision with
  | add creates named own fresh below _ =>
      refine ⟨.add creates named own fresh fun id above => ?_, fun keeps => ?_⟩
      · rw [own]
        exact below id above
      · exact absurd (creates.symm.trans keeps) (by decide)
  | rewrite rewrites known own _ =>
      have keeps : request.creates = false := Request.creates_of_rewrites rewrites
      exact ⟨.change keeps fun _ => owns _ known own keeps, changed _ _ _⟩
  | retag edits known own =>
      have keeps : request.creates = false := Request.creates_of_editsOneMemo edits
      exact ⟨.change keeps fun _ => owns _ known own keeps, changed _ _ _⟩
  | refresh rebuilds _ _ =>
      have keeps : request.creates = false := congrArg Request.creates rebuilds
      exact ⟨.change keeps fun other => absurd rebuilds other, changed _ _ _⟩
  | remove removes known own stored =>
      have keeps : request.creates = false := Request.creates_of_removes removes
      exact ⟨.remove removes stored (owns _ known own keeps),
        fun _ => Collection.origins_without.trans (part keeps)⟩

/-! ### Orderly histories -/

section Histories

open Collection

variable {call : Call} {calls : List Call} {memos memos' : Collection} {used : List MemoId}

/-- A step of a call that makes no memo leaves out some origins at most. -/
theorem Step.origins_sublist (step : Step call memos memos')
    (keeps : call.request.creates = false) : memos'.origins.Sublist memos.origins := by
  cases step with
  | add creates _ _ _ _ => exact absurd (creates.symm.trans keeps) (by decide)
  | change _ _ => rw [origins_modify]
  | remove _ _ _ => exact origins_without

/-- A step of a call that makes a memo adds it. -/
theorem Step.eq_append (step : Step call memos memos') (creates : call.request.creates = true) :
    ∃ m, memos' = memos ++ [m] ∧ m.id = call.circumstances.freshId ∧
      m.creator = call.circumstances.user ∧ memos.hasId m.id = false ∧
      ∀ id, m.parent = some id → ∃ parent ∈ memos, parent.id = id ∧ parent.creator = m.creator := by
  cases step with
  | @add m _ named own fresh below => exact ⟨m, rfl, named, own, fresh, below⟩
  | change keeps _ => exact absurd (creates.symm.trans keeps) (by decide)
  | remove removes _ _ =>
      exact absurd (creates.symm.trans (Request.creates_of_removes removes)) (by decide)

/-- A call that makes a memo saves once at most: the identifier is in use then. -/
theorem Step.alone (creates : call.request.creates = true) (s s' s'' : Collection)
    (earlier : Step call s s') : ¬ Step call s' s'' := by
  intro later
  obtain ⟨m, -, named, -, fresh, -⟩ := later.eq_append creates
  obtain ⟨m', rfl, named', -⟩ := earlier.eq_append creates
  have used : m.id ∈ ids (s ++ [m']) := by
    rw [named, ← named']
    exact List.mem_map_of_mem (by simp)
  exact absurd (fresh.symm.trans (hasId_iff.mpr used)) (by decide)

/-- The saves of a call on an orderly store are steps. -/
theorem Call.linked_step (orderly : memos.Orderly) : Linked (Step call) memos (call.saved memos) :=
  Call.linked_saved (saves_step call.circumstances call.request) orderly

/-- The identifiers that a history gives out, in order. -/
def newIds (calls : List Call) : List MemoId :=
  (calls.filter (·.request.creates)).map (·.circumstances.freshId)

/-- The first call gives out its identifier first. -/
theorem newIds_cons : newIds (call :: calls) = newIds [call] ++ newIds calls := by
  rw [newIds, newIds, newIds, ← List.map_append, ← List.filter_append, List.singleton_append]

/-- Every identifier of a memo, and every one that a comment refers to, is among those used. -/
def Collection.Within (used : List MemoId) (memos : Collection) : Prop :=
  ∀ m ∈ memos, m.id ∈ used ∧ ∀ id, m.parent = some id → id ∈ used

/-- Where some memos are gone, the others use no other identifiers. -/
theorem Collection.Within.of_origins (within : memos.Within used)
    (part : memos'.origins.Sublist memos.origins) : memos'.Within used := by
  intro m' member
  obtain ⟨m, member, sameId, -, sameParent⟩ := exists_origin_eq part member
  rw [← sameId, ← sameParent]
  exact within m member

/-- More identifiers may count as used. -/
theorem Collection.Within.mono {used' : List MemoId} (within : memos.Within used)
    (more : used ⊆ used') : memos.Within used' :=
  fun m member => ⟨more (within m member).1, fun id above => more ((within m member).2 id above)⟩

/-- A call leaves an orderly store orderly if it gives out no identifier that was used before. -/
theorem Call.orderly_saved (orderly : memos.Orderly) (within : memos.Within used)
    (distinct : (used ++ newIds [call]).Nodup) :
    ∀ s ∈ call.saved memos, s.Orderly ∧ s.Within (used ++ newIds [call]) := by
  have linked : Linked (Step call) memos (call.saved memos) := Call.linked_step orderly
  cases creates : call.request.creates with
  | true =>
      have given : newIds [call] = [call.circumstances.freshId] := by simp [newIds, creates]
      rw [given] at distinct ⊢
      rcases linked.single (Step.alone creates) with none | ⟨memos', once, step⟩
      · simp [none]
      · obtain ⟨m, rfl, named, own, fresh, below⟩ := step.eq_append creates
        have unused : m.id ∉ used := fun early =>
          (List.nodup_append.mp distinct).2.2 _ early _ (by simp) named
        rw [once]
        intro s same
        obtain rfl := List.mem_singleton.mp same
        refine ⟨orderly.append fresh (fun x known above => unused ?_) below, fun x member => ?_⟩
        · exact (within x known).2 _ above
        · rcases List.mem_append.mp member with old | new
          · exact within.mono (List.subset_append_left _ _) x old
          · obtain rfl := List.mem_singleton.mp new
            refine ⟨by simp [named], fun id above => ?_⟩
            obtain ⟨parent, known, rfl, -⟩ := below id above
            exact List.mem_append_left _ (within parent known).1
  | false =>
      refine linked.forall_mem ?_ ⟨orderly, within.mono (List.subset_append_left _ _)⟩
      rintro s s' ⟨orderly, within⟩ step
      have part := step.origins_sublist creates
      exact ⟨orderly.of_origins part, within.of_origins part⟩

/-- A history that begins with an orderly store goes through orderly stores only, if it gives out
no identifier twice and none that was used before. -/
theorem orderly_of_mem_states_from (orderly : memos.Orderly) (within : memos.Within used)
    (distinct : (used ++ newIds calls).Nodup) : ∀ s ∈ states memos calls, s.Orderly := by
  induction calls generalizing memos used with
  | nil => simpa [states] using orderly
  | cons call calls ih =>
      rw [newIds_cons, ← List.append_assoc] at distinct
      have during := Call.orderly_saved orderly within (List.nodup_append.mp distinct).1
      have final := Call.after_of_saved ⟨orderly, within.mono (List.subset_append_left _ _)⟩ during
      intro s hs
      rw [states, List.mem_append, List.mem_cons, List.mem_reverse] at hs
      rcases hs with (rfl | hs) | hs
      · exact orderly
      · exact (during s hs).1
      · exact ih final.1 final.2 distinct s hs

/-- **Every state of a history is orderly** that begins with the empty store and gives out no
identifier twice. -/
theorem orderly_of_mem_states (distinct : (newIds calls).Nodup) :
    ∀ s ∈ states [] calls, s.Orderly := by
  have within : Collection.Within [] [] := by simp [Collection.Within]
  exact orderly_of_mem_states_from .empty within distinct

/-- Two states of such a history in a row are the same or a step apart. -/
theorem step_of_consecutive (distinct : (newIds calls).Nodup)
    (consecutive : [memos, memos'] <:+: states [] calls) :
    memos' = memos ∨ ∃ call ∈ calls, Step call memos memos' := by
  have linked : ∀ call ∈ calls, ∀ s ∈ states [] calls, Linked (Step call) s (call.saved s) :=
    fun _ _ s known => Call.linked_step (orderly_of_mem_states distinct s known)
  have chain := List.IsChain.infix (states_isChain linked) consecutive
  exact chain.rel

/-- What holds of the empty store and is kept from each state of such a history to the next one
holds in all of them. -/
theorem forall_states_of_step {I : Collection → Prop} (distinct : (newIds calls).Nodup)
    (initial : I [])
    (kept : ∀ call s s', [s, s'] <:+: states [] calls → Step call s s' → I s → I s') :
    ∀ s ∈ states [] calls, I s := by
  refine (List.isChain_isInfix (states [] calls)).induction I _ ?_ fun nonempty => ?_
  · intro s s' consecutive before
    rcases step_of_consecutive distinct consecutive with rfl | ⟨call, -, step⟩
    · exact before
    · exact kept call s s' consecutive step before
  · have first : (states [] calls).head nonempty = [] :=
      Option.some.inj ((List.head?_eq_some_head nonempty).symm.trans (head?_states [] calls))
    rw [first]
    exact initial

end Histories

end TaggedMemos
