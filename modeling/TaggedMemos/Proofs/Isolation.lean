import TaggedMemos.Proofs.Listing
import TaggedMemos.Proofs.Step

/-!
# Users Do Not Meet

Users share a store, and its actions find memos by their identifiers alone. Nevertheless no user
touches the memos of another one, except by a rebuild: a memo is looked up for its owner before it
is changed or deleted, and the comments that go away with it belong to the same owner, since the
store is orderly.

Nor does a user notice the others. What a listing or a sweep comes to is told by the user's own
memos that are no comments, whatever else is stored.

## Main results

* `Step.others_kept`: a step leaves the memos of other users as they are.
* `outcome_of_own`: the outcome of a listing or a sweep is told by the caller's own memos.
* `users_are_isolated`: both of it, for all histories.
-/

namespace TaggedMemos

open Collection

/-! ### The memos of other users -/

/-- The memos of all users but one. -/
def Collection.others (user : UserId) (memos : Collection) : List Memo :=
  memos.filter (·.creator ≠ user)

section

variable {memos memos' : Collection} {user : UserId} {id : MemoId} {call : Call}

/-- A change of a memo of a user leaves the memos of the others as they are. -/
theorem others_modify (distinct : (ids memos).Nodup) (own : memos.Owns user id) (change : Change)
    (now : Timestamp) : (memos.modify id (change.apply now)).others user = memos.others user := by
  rw [modify_eq_map distinct, others, others, List.filter_map]
  have kept : (fun m : Memo => decide (m.creator ≠ user)) ∘
      (fun m => if m.id = id then change.apply now m else m) =
        fun m => decide (m.creator ≠ user) := by
    funext m
    simp only [Function.comp_apply]
    split <;> rfl
  rw [kept]
  refine (List.map_congr_left fun m member => if_neg fun named => ?_).trans (List.map_id _)
  obtain ⟨member, foreign⟩ := List.mem_filter.mp member
  exact of_decide_eq_true foreign (own m member named)

/-- Removing a memo of a user leaves the memos of the others as they are: the comments on it belong
to the same user. -/
theorem others_without (orderly : memos.Orderly) (known : memos.hasId id = true)
    (own : memos.Owns user id) : (memos.without id).others user = memos.others user := by
  rw [without, others, others, List.filter_filter]
  refine List.filter_congr fun m member => ?_
  rw [Bool.eq_iff_iff]
  simp only [Bool.and_eq_true, decide_eq_true_iff, bne_iff_ne, and_iff_left_iff_imp]
  intro foreign
  obtain ⟨parent, stored, named⟩ := List.mem_map.mp (hasId_iff.mp known)
  refine ⟨fun same => foreign (own m member same), fun below => foreign ?_⟩
  rw [orderly.owned m member parent stored (by rw [below, named]), own parent stored named]

/-- **A step leaves the memos of other users as they are.** -/
theorem Step.others_kept (step : Step call memos memos') (orderly : memos.Orderly)
    (regular : call.request ≠ .rebuildPayloads) :
    memos'.others call.circumstances.user = memos.others call.circumstances.user := by
  cases step with
  | add _ _ own _ _ => simp [others, List.filter_append, own]
  | change _ own => exact others_modify orderly.distinct (own regular) _ _
  | remove _ known own => exact others_without orderly known own

/-- Every save of a call leaves the memos of other users as they are. -/
theorem Call.others_saved (orderly : memos.Orderly) (regular : call.request ≠ .rebuildPayloads) :
    ∀ left ∈ call.saved memos,
      left.others call.circumstances.user = memos.others call.circumstances.user := by
  have linked : Linked (Step call) memos (call.saved memos) := Call.linked_step orderly
  cases creates : call.request.creates with
  | true =>
      rcases linked.single (Step.alone creates) with none | ⟨memos', once, step⟩
      · simp [none]
      · rw [once, List.forall_mem_singleton]
        exact step.others_kept orderly regular
  | false =>
      -- The store stays orderly on the way, since the call makes no memo.
      have kept := linked.forall_mem (I := fun s => s.Orderly ∧
        s.others call.circumstances.user = memos.others call.circumstances.user) ?_ ⟨orderly, rfl⟩
      · exact fun left saved => (kept left saved).2
      · rintro s s' ⟨orderly, same⟩ step
        exact ⟨orderly.of_origins (step.origins_sublist creates),
          (step.others_kept orderly regular).trans same⟩

end

/-! ### What a user is told -/

/-- Whether a request lists memos or tags of the caller. -/
def Request.isListing : Request → Bool
  | .listMemos _ | .listTags _ | .getTag .. => true
  | _ => false

/-- A memo without the time when it was last written. -/
def Memo.undated (m : Memo) : Memo :=
  { m with updated := m.created }

section

open TaggedMemos.Action Service

variable {memos memos' : Collection} {c c' : Circumstances} {request : Request} {p p' : Progress}

/-- A listing is told by the caller's own memos. -/
theorem listing_of_own (listing : request.isListing = true) (user : c'.user = c.user)
    (current : p.current = .ok memos) (current' : p'.current = .ok memos')
    (same : memos.own c.user = memos'.own c.user) :
    (request.perform.outcome c p).1 = (request.perform.outcome c' p').1 := by
  obtain ⟨q, tags⟩ := outcome_callerTags (c := c) current
  obtain ⟨q', tags'⟩ := outcome_callerTags (c := c') current'
  rw [user, index, ← same, ← index] at tags'
  cases request with
  | listMemos tag =>
      cases tag with
      | none =>
          simp only [Request.perform, listMemos, Store.list, outcome_bind, outcome_read,
            outcome_load, current, current', outcome_pure, select_ownedBy, user, same]
      | some tag =>
          cases accepted : TagPath.validate tag with
          | error reason =>
              simp only [Request.perform, listMemos, outcome_bind, outcome_requirePath, accepted,
                mapError_error]
          | ok path =>
              simp only [Request.perform, listMemos, outcome_bind, outcome_requirePath, accepted,
                mapError_ok, outcome_ownedWith current, outcome_ownedWith current', outcome_pure,
                matching, user, same]
  | listTags query =>
      simp only [Request.perform, listTags, outcome_bind, tags, tags', outcome_pure]
  | getTag input withIds =>
      cases accepted : TagPath.validate input with
      | error reason =>
          simp only [Request.perform, getTag, outcome_bind, outcome_requirePath, accepted,
            mapError_error]
      | ok path =>
          simp only [Request.perform, getTag, outcome_bind, outcome_requirePath, accepted,
            mapError_ok, tags, tags']
          generalize TagIndex.find? _ path = found
          cases found with
          | none => rfl
          | some node => rfl
  | _ => cases listing

/-- A listing saves nothing. -/
theorem quiet_listing (listing : request.isListing = true) : Quiet c request.perform := by
  cases request with
  | listMemos tag => exact (Quiet.listMemos tag).bind fun _ => .pure _
  | listTags query => exact (Quiet.listTags query).bind fun _ => .pure _
  | getTag input withIds => exact (Quiet.getTag input withIds).bind fun _ => .pure _
  | _ => cases listing

end

/-! ### What a user's sweeps do -/

section

variable {t : Treatment} {c : Circumstances} {user : UserId} {freshId : MemoId}
variable {now : Nat → Timestamp}

/-- A treatment treats the memos of a user that are no comments as it treats all memos. -/
theorem own_applyTo (done : List Memo) (memos : Collection) :
    (t.applyTo c done memos).own user = t.applyTo c done (memos.own user) := by
  cases t with
  | rewrite edit =>
      rw [Treatment.applyTo, own, List.filter_map, Treatment.applyTo, own]
      refine congrArg _ (List.filter_congr fun m _ => ?_)
      simp only [Function.comp_apply]
      split <;> rfl
  | delete =>
      rw [Treatment.applyTo, own, Treatment.applyTo, own, List.filter_filter, List.filter_filter]
      exact List.filter_congr fun m _ => Bool.and_comm _ _
  | spare => rfl

/-- How far a sweep comes has nothing to do with the time, or with the identifier of a new memo. -/
theorem course_later (done : Nat) (memos : List Memo) :
    t.course { c with freshId, now } done memos = t.course c done memos := by
  induction memos generalizing done with
  | nil => rfl
  | cons m memos ih =>
      have same : t.obstacle { c with freshId, now } done m = t.obstacle c done m := by
        cases t <;> rfl
      rw [Treatment.course, Treatment.course, same, ih]

/-- Treatments at different times come to the same but for the times. -/
theorem undated_applyTo (done memos : List Memo) :
    (t.applyTo { c with freshId, now } done memos).map Memo.undated =
      (t.applyTo c done memos).map Memo.undated := by
  cases t with
  | rewrite edit =>
      rw [Treatment.applyTo, Treatment.applyTo, List.map_map, List.map_map]
      refine List.map_congr_left fun m _ => ?_
      simp only [Function.comp_apply]
      split <;> rfl
  | delete => rfl
  | spare => rfl

end

section

variable {memos memos' : Collection} {c : Circumstances} {request : Request}

/-- **The outcome of a listing or a sweep** is told by the caller's own memos that are no comments,
and so are those that it leaves. -/
theorem outcome_of_own (wide : request.isListing = true ∨ request.isSweep = true)
    (distinct : (ids memos).Nodup) (distinct' : (ids memos').Nodup)
    (same : memos.own c.user = memos'.own c.user) (freshId : MemoId) (now : Nat → Timestamp) :
    let call : Call := ⟨c, request⟩
    let call' : Call := ⟨{ c with freshId, now }, request⟩
    (call.outcome memos).1 = (call'.outcome memos').1 ∧
      ((call.after memos).own c.user).map Memo.undated =
        ((call'.after memos').own c.user).map Memo.undated := by
  intro call call'
  rcases wide with listing | sweep
  · have saved : call.saved memos = [] := (quiet_listing listing _).1
    have saved' : call'.saved memos' = [] := (quiet_listing listing _).1
    refine ⟨listing_of_own listing rfl rfl rfl same, ?_⟩
    rw [Call.after, saved, Call.after, saved', List.headD_nil, List.headD_nil, same]
  · rcases sweeps_or_refused sweep with ⟨filter, t, answer, sweeps⟩ | ⟨complaint, refused⟩
    · have comes : t.ComesTo c memos (memos.matching c.user filter)
          (answer (memos.matching c.user filter)) (call.outcome memos) :=
        comesTo_of_sweeps sweeps distinct
      have comes' : t.ComesTo { c with freshId, now } memos' (memos'.matching c.user filter)
          (answer (memos'.matching c.user filter)) (call'.outcome memos') :=
        comesTo_of_sweeps sweeps distinct'
      have selected : memos'.matching c.user filter = memos.matching c.user filter := by
        rw [matching, matching, same]
      -- Both sweeps go through the same memos, and stop at the same one.
      rw [selected] at comes'
      have value' := comes'.value
      have after' := comes'.after
      rw [course_later] at value' after'
      refine ⟨comes.value.trans value'.symm, ?_⟩
      rw [Call.after, Call.saved, comes.after, Call.after, Call.saved, after', own_applyTo,
        own_applyTo, same]
      exact (undated_applyTo _ _).symm
    · have stuck : call.outcome memos = (.error (.invalidArgument complaint), _) := refused _ _
      have stuck' : call'.outcome memos' = (.error (.invalidArgument complaint), _) := refused _ _
      refine ⟨by rw [stuck, stuck'], ?_⟩
      rw [Call.after, Call.saved, stuck, Call.after, Call.saved, stuck']
      exact congrArg (List.map Memo.undated) same

end

/-- **Users do not meet.** In every state of a history that gives out no identifier twice, a call
other than a rebuild leaves the memos of other users as they are, whether it succeeds or fails. Two
states, even of different histories, that agree on a user's own memos but for the comments give the
same answers to the user's listings and sweeps, which leave the user with the same such memos again
but for the times of writing. -/
theorem users_are_isolated {calls calls' : List Call} {s s' : Collection}
    (fresh : (newIds calls).Nodup) (fresh' : (newIds calls').Nodup)
    (reached : s ∈ states [] calls) (reached' : s' ∈ states [] calls') (c : Circumstances) :
    (∀ request ≠ .rebuildPayloads,
      ∀ left ∈ Call.after ⟨c, request⟩ s :: Call.saved ⟨c, request⟩ s,
        left.others c.user = s.others c.user) ∧
    (s.own c.user = s'.own c.user →
      ∀ request : Request, request.isListing = true ∨ request.isSweep = true → ∀ freshId now,
        let call : Call := ⟨c, request⟩
        let call' : Call := ⟨{ c with freshId, now }, request⟩
        (call.outcome s).1 = (call'.outcome s').1 ∧
          ((call.after s).own c.user).map Memo.undated =
            ((call'.after s').own c.user).map Memo.undated) := by
  have orderly : s.Orderly := orderly_of_mem_states fresh s reached
  have orderly' : s'.Orderly := orderly_of_mem_states fresh' s' reached'
  refine ⟨fun request regular left final => ?_, fun same request wide => ?_⟩
  · have kept : ∀ left ∈ Call.saved ⟨c, request⟩ s, left.others c.user = s.others c.user :=
      Call.others_saved orderly regular
    rcases List.mem_cons.mp final with rfl | saved
    · exact Call.after_of_saved (I := fun left => left.others c.user = s.others c.user) rfl kept
    · exact kept left saved
  · exact outcome_of_own wide orderly.distinct orderly'.distinct same

/-- A call by which a user makes a memo that carries the tag `/t`, or a comment that does. -/
def making (user : UserId) (n : Nat) (parent : Option String := none) : Call where
  circumstances := { user, freshId := .ofNat n, now := default }
  request := .createMemo "#t" parent

/-- A user deletes a memo with the comment on it. The memo of the other user with the same tag
stays, and the answer is the one that the user would get without the other one. -/
theorem users_are_isolated_sharing :
    let foreign := { tagged 2 with creator := 2 }
    let shared : Collection := [tagged 1, foreign, tagged 3 (some (.ofNat 1))]
    let call : Call :=
      ⟨{ user := 1, freshId := default, now := default }, .batchDelete "t" false false⟩
    (call.after shared).others 1 = [foreign] ∧
      (call.outcome shared).1 = (call.outcome [tagged 1]).1 := by
  intro foreign shared call
  let calls : List Call := [making 1 1, making 2 2, making 1 3 (some (MemoName.ofId (.ofNat 1)))]
  have fresh : (newIds calls).Nodup := by decide
  have fresh' : (newIds [making 1 1]).Nodup := by decide
  have reached : shared ∈ states [] calls := by decide +kernel
  have reached' : [tagged 1] ∈ states [] [making 1 1] := by decide +kernel
  obtain ⟨kept, told⟩ := users_are_isolated fresh fresh' reached reached' call.circumstances
  refine ⟨(kept _ (by decide) _ List.mem_cons_self).trans (by decide), ?_⟩
  exact (told (by decide) _ (.inr rfl) default default).1

end TaggedMemos
