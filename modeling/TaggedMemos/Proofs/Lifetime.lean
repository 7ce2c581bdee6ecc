import TaggedMemos.Proofs.Origin
import TaggedMemos.Proofs.Revision

/-!
# The Life of a Memo

A memo comes into a store at the end of the list, by a request that creates it. Its origin, that is
its identifier, its owner, its parent and the time of its creation, stays with it until it is
removed, and the memos that are left keep their order. All of this is about the list of origins: a
request that creates nothing leaves some of them out at most, and only a request that may remove
memos does even that.

Identifiers tell the memos of one state apart. They do not name a memo once and for all, since an
identifier is free again when its memo is gone. So the memos made in a history are listed as they
are made, and the origins of every state are found in that list, in its order.

## Main results

* `Revision.origins_sublist`, `Revision.origins_eq`: what a revision does to the origins.
* `Call.saved_of_creates`: what a request for a new memo does.
* `origins_of_mem_states`: the memos of every state stand in order of creation.
* `memos_keep_their_origins`: all of it, for every history.
-/

namespace TaggedMemos

open Collection

variable {call : Call} {start memos memos' : Collection}

/-! ### Revisions and origins -/

/-- A revision by a request that creates nothing leaves out some origins at most. -/
theorem Revision.origins_sublist (revision : Revision call start memos memos')
    (keeps : call.request.creates = false) : memos'.origins.Sublist memos.origins := by
  cases revision with
  | add creates _ _ _ _ _ => exact absurd (creates.symm.trans keeps) (by decide)
  | rewrite _ _ _ _ => rw [origins_modify]
  | retag _ _ _ => rw [origins_modify]
  | refresh _ _ _ => rw [origins_modify]
  | remove _ _ _ _ => exact origins_without

/-- A revision by a request that neither creates nor removes memos keeps all origins. -/
theorem Revision.origins_eq (revision : Revision call start memos memos')
    (keeps : call.request.creates = false) (spares : call.request.removes = false) :
    memos'.origins = memos.origins := by
  cases revision with
  | add creates _ _ _ _ _ => exact absurd (creates.symm.trans keeps) (by decide)
  | rewrite _ _ _ _ => exact origins_modify _ _
  | retag _ _ _ => exact origins_modify _ _
  | refresh _ _ _ => exact origins_modify _ _
  | remove removes _ _ _ => exact absurd (removes.symm.trans spares) (by decide)

/-- A revision by a request that creates a memo adds it to what the call began with. -/
theorem Revision.eq_append (revision : Revision call start memos memos')
    (creates : call.request.creates = true) :
    memos = start ∧ ∃ m, memos' = start ++ [m] ∧ start.hasId m.id = false := by
  cases revision with
  | add _ _ _ fresh _ _ => exact ⟨rfl, _, rfl, fresh⟩
  | rewrite rewrites _ _ _ =>
      exact absurd (creates.symm.trans (Request.creates_of_rewrites rewrites)) (by decide)
  | retag edits _ _ =>
      exact absurd (creates.symm.trans (Request.creates_of_editsOneMemo edits)) (by decide)
  | refresh rebuilds _ _ =>
      exact absurd (creates.symm.trans (congrArg Request.creates rebuilds)) (by decide)
  | remove removes _ _ _ =>
      exact absurd (creates.symm.trans (Request.creates_of_removes removes)) (by decide)

/-- A request that creates a memo makes no two revisions in a row: each would be one of the
collection that the call began with. -/
theorem Revision.alone (creates : call.request.creates = true) (s s' s'' : Collection)
    (earlier : Revision call start s s') : ¬ Revision call start s' s'' := by
  intro later
  obtain ⟨same, -⟩ := later.eq_append creates
  obtain ⟨-, m, grown, -⟩ := earlier.eq_append creates
  simp [grown] at same

/-- A revision keeps distinct identifiers distinct. -/
theorem Revision.nodup_ids (revision : Revision call start memos memos')
    (distinct : (ids memos).Nodup) : (ids memos').Nodup := by
  cases creates : call.request.creates with
  | true =>
      obtain ⟨rfl, m, rfl, fresh⟩ := revision.eq_append creates
      exact nodup_ids_append distinct fresh
  | false =>
      rw [← map_id_origins] at distinct ⊢
      exact distinct.sublist ((revision.origins_sublist creates).map _)

/-- Where identifiers are distinct, a memo that has the identifier of one from before a revision has
its whole origin. -/
theorem Revision.origin_eq_of_id (revision : Revision call start memos memos')
    (distinct : (ids memos).Nodup) {m m' : Memo} (before : m ∈ memos) (after : m' ∈ memos')
    (same : m.id = m'.id) : m.origin = m'.origin := by
  have told : ∀ o ∈ memos.origins, o.id = m.id → m.origin = o := by
    rw [← map_id_origins] at distinct
    intro o known named
    exact List.inj_on_of_nodup_map distinct (List.mem_map_of_mem before) known named.symm
  cases creates : call.request.creates with
  | true =>
      obtain ⟨rfl, added, rfl, fresh⟩ := revision.eq_append creates
      rcases List.mem_append.mp after with old | new
      · exact told _ (List.mem_map_of_mem old) same.symm
      · obtain rfl := List.mem_singleton.mp new
        have used : memos.hasId m'.id = true := hasId_iff.mpr (same ▸ List.mem_map_of_mem before)
        exact absurd (used.symm.trans fresh) (by decide)
  | false =>
      refine told _ ?_ same.symm
      exact (revision.origins_sublist creates).subset (List.mem_map_of_mem after)

/-! ### New memos -/

/-- A request for a new memo fails and saves nothing, or saves once: the memo that it answers is at
the end then. -/
theorem Call.saved_of_creates (creates : call.request.creates = true) (memos : Collection) :
    (∃ fault, (call.outcome memos).1 = .error fault ∧ call.saved memos = []) ∨
      ∃ m, (call.outcome memos).1 = .ok (.memo m) ∧ call.saved memos = [memos ++ [m]] := by
  obtain ⟨c, request⟩ := call
  have linked := Call.linked_revision ⟨c, request⟩ memos
  cases request with
  | createMemo content parent =>
      have atomic : Action.Atomic c (Request.createMemo content parent).perform := by
        refine .bind_of_ok (x := Service.createMemo content parent) ?_ fun _ _ => ⟨_, rfl⟩
        refine .after_quiet (.checkLength content) fun _ => ?_
        refine .after_quiet (.resolveParent parent) fun parent => ?_
        refine .after_quiet (.payloadOf content) fun payload => .after_quiet .read fun c' => ?_
        refine .after_quiet .clock fun now => ?_
        exact (Action.Atomic.create _).bind_of_ok fun m _ => ⟨m, rfl⟩
      cases ended : (Call.outcome ⟨c, .createMemo content parent⟩ memos).1 with
      | error fault => exact .inl ⟨fault, rfl, atomic _ fault ended⟩
      | ok answer =>
          have stores : Action.Saves c (Revision ⟨c, .createMemo content parent⟩ memos)
              (fun s => s = memos) (Request.createMemo content parent).perform
              (fun answer s => ∃ m, answer = Answer.memo m ∧ s = memos ++ [m]) :=
            (revises_createMemo rfl content parent).bind fun m =>
              .pure fun _ same => ⟨m, rfl, same⟩
          obtain ⟨m, rfl, after⟩ := Call.after_of_ok (P := fun s => s = memos) stores rfl ended
          refine .inr ⟨m, rfl, ?_⟩
          rw [Call.after] at after
          rcases linked.single (Revision.alone rfl) with none | ⟨memos', once, -⟩
          · simp [none] at after
          · simpa [once] using after
  | _ => cases creates

/-- The memo that a call makes, if it makes one. -/
def Call.born (call : Call) (memos : Collection) : List Memo :=
  match call.request, (call.outcome memos).1 with
  | .createMemo .., .ok (.memo m) => [m]
  | _, _ => []

/-- The memos made in a history, in order. -/
def births (memos : Collection) : List Call → List Memo
  | [] => []
  | call :: calls => call.born memos ++ births (call.after memos) calls

/-- A request that creates nothing leaves out more and more origins, from save to save. -/
theorem Call.origins_pairwise (keeps : call.request.creates = false) (memos : Collection) :
    (memos :: (call.saved memos).reverse).Pairwise fun s s' => s'.origins.Sublist s.origins := by
  have linked : Linked (fun s s' => s'.origins.Sublist s.origins) memos (call.saved memos) :=
    (call.linked_revision memos).mono fun _ _ revision => revision.origins_sublist keeps
  exact @List.IsChain.pairwise _ _ _ ⟨fun h h' => h'.trans h⟩ linked.isChain.1

/-- A call adds the origin of the memo that it makes, and leaves out others at most. -/
theorem Call.origins_saved (memos : Collection) :
    ∀ s ∈ call.saved memos, s.origins.Sublist (origins (memos ++ call.born memos)) := by
  intro s saved
  cases creates : call.request.creates with
  | true =>
      rcases call.saved_of_creates creates memos with ⟨fault, -, none⟩ | ⟨m, answered, once⟩
      · simp [none] at saved
      · have born : call.born memos = [m] := by
          obtain ⟨c, request⟩ := call
          cases request with
          | createMemo content parent => simp only [Call.born, answered]
          | _ => cases creates
        rw [once, List.mem_singleton] at saved
        rw [saved, born]
  | false =>
      have less : s.origins.Sublist memos.origins :=
        (List.pairwise_cons.mp (call.origins_pairwise creates memos)).1 s
          (List.mem_reverse.mpr saved)
      rw [origins_append]
      exact less.trans (List.sublist_append_left _ _)

/-! ### Histories -/

/-- **The memos of every state stand in order of creation**: those that a history began with, and
then those made in it. -/
theorem origins_of_mem_states {calls : List Call} :
    ∀ s ∈ states memos calls, s.origins.Sublist (origins (memos ++ births memos calls)) := by
  induction calls generalizing memos with
  | nil => simp [states, births]
  | cons call calls ih =>
      have grown : ∀ s : Collection, s.origins.Sublist (origins (memos ++ call.born memos)) →
          s.origins.Sublist (origins (memos ++ births memos (call :: calls))) := by
        intro s part
        rw [births, ← List.append_assoc, origins_append]
        exact part.trans (List.sublist_append_left _ _)
      have initial : memos.origins.Sublist (origins (memos ++ call.born memos)) := by
        rw [origins_append]
        exact List.sublist_append_left _ _
      have during := call.origins_saved memos
      have final : (call.after memos).origins.Sublist (origins (memos ++ call.born memos)) :=
        Call.after_of_saved (I := fun s => s.origins.Sublist _) initial during
      intro s member
      rw [states, List.mem_append, List.mem_cons, List.mem_reverse] at member
      rcases member with (rfl | saved) | later
      · exact grown _ initial
      · exact grown s (during s saved)
      · refine (ih s later).trans ?_
        rw [births, ← List.append_assoc, origins_append, origins_append]
        exact final.append (List.Sublist.refl _)

/-- Identifiers that are distinct at the beginning of a history are so in every state. -/
theorem nodup_ids_of_mem_states {calls : List Call} (distinct : (ids memos).Nodup) :
    ∀ s ∈ states memos calls, (ids s).Nodup := by
  refine states_induction (fun call _ s before => ?_) distinct
  exact (call.linked_revision s).forall_mem (fun _ _ before revision => revision.nodup_ids before)
    before

/-- **Memos keep their origins.** In every state of a history that begins with distinct identifiers
the identifiers are distinct, and the memos stand in order of creation. From each state to the next
one, a memo keeps its identifier, its owner, its parent and the time of its creation for as long as
it exists. A call that succeeds in creating a memo saves once, with just this memo more at the end,
and one that fails in it saves nothing. No other call adds memos, and only a deletion removes any.
-/
theorem memos_keep_their_origins {calls : List Call} (distinct : (ids memos).Nodup) :
    (∀ s ∈ states memos calls,
      (ids s).Nodup ∧ s.origins.Sublist (origins (memos ++ births memos calls))) ∧
    (∀ s s', [s, s'] <:+: states memos calls →
      ∀ m ∈ s, ∀ m' ∈ s', m.id = m'.id → m.origin = m'.origin) ∧
    ∀ s ∈ states memos calls, ∀ call : Call,
      (call.request.creates = true →
        (∃ fault, (call.outcome s).1 = .error fault ∧ call.saved s = []) ∨
          ∃ m, (call.outcome s).1 = .ok (.memo m) ∧ call.saved s = [s ++ [m]]) ∧
      (call.request.creates = false →
        (s :: (call.saved s).reverse).Pairwise fun t t' => t'.origins.Sublist t.origins) ∧
      (call.request.creates = false → call.request.removes = false →
        ∀ t ∈ call.saved s, t.origins = s.origins) := by
  have everywhere : ∀ s ∈ states memos calls, (ids s).Nodup := nodup_ids_of_mem_states distinct
  refine ⟨fun s reached => ⟨everywhere s reached, origins_of_mem_states s reached⟩, ?_, ?_⟩
  · intro s s' consecutive m before m' after same
    -- Each save keeps the origins of distinct identifiers, and every state has these.
    have linked : ∀ call ∈ calls, ∀ s ∈ states memos calls,
        Linked (fun s s' => (ids s).Nodup → ∀ m ∈ s, ∀ m' ∈ s', m.id = m'.id →
          m.origin = m'.origin) s (call.saved s) := by
      intro call _ s _
      refine (call.linked_revision s).mono fun s s' revision distinct m before m' after same => ?_
      exact revision.origin_eq_of_id distinct before after same
    have distinct' : (ids s).Nodup := everywhere s (consecutive.subset (by simp))
    have chain := List.IsChain.infix (states_isChain linked) consecutive
    rcases chain.rel with rfl | ⟨call, -, kept⟩
    · exact congrArg Memo.origin (List.inj_on_of_nodup_map distinct' before after same)
    · exact kept distinct' m before m' after same
  · intro s _ call
    refine ⟨fun creates => call.saved_of_creates creates s,
      fun keeps => call.origins_pairwise keeps s, fun keeps spares => ?_⟩
    exact (call.linked_revision s).forall_mem (I := fun t => t.origins = s.origins)
      (fun _ _ same revision => (revision.origins_eq keeps spares).trans same) rfl

/-- A history of the user 1 that makes the memo 3, deletes the memo 1, is refused another memo 3,
and makes a memo 1 once more. -/
def turnover : List Call :=
  let at' := fun (n : Nat) => ({ user := 1, freshId := .ofNat n, now := default } : Circumstances)
  [⟨at' 3, .createMemo "c" none⟩, ⟨at' 4, .deleteMemo (MemoName.ofId (.ofNat 1))⟩,
    ⟨at' 3, .createMemo "d" none⟩, ⟨at' 1, .createMemo "e" none⟩]

/-- The new memo 1 does not take the place of the old one, which is gone with the comment on it. -/
theorem memos_keep_their_origins_turnover :
    let memo := fun (n : Nat) (parent : Option MemoId) =>
      ({ id := .ofNat n, creator := 1, parent, content := "", created := default,
         updated := default } : Memo)
    let memos : Collection := [memo 1 none, memo 2 (some (.ofNat 1))]
    (ids memos).Nodup ∧
      (states memos turnover).getLast?.map ids = some [.ofNat 3, .ofNat 1] ∧
      (births memos turnover).map (·.id) = [.ofNat 3, .ofNat 1] ∧
      ∀ s ∈ states memos turnover,
        (ids s).Nodup ∧ s.origins.Sublist (origins (memos ++ births memos turnover)) := by
  intro memo memos
  have distinct : (ids memos).Nodup := by decide
  exact ⟨distinct, by decide +kernel, by decide +kernel, (memos_keep_their_origins distinct).1⟩

end TaggedMemos
