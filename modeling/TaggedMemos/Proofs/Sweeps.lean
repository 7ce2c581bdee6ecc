import TaggedMemos.Proofs.Course
import TaggedMemos.Proofs.History

/-!
# Requests over Several Memos

Renaming a tag, deleting it in either way and deleting the memos with a tag are all sweeps: with
arguments that are accepted they list the caller's memos that carry the tag, treat them in the order
of the store and give one answer for all of them. A sweep that fails halfway leaves its first memos
treated and the others as they were.

## Main results

* `Request.Sweeps`: the requests that sweep, with what they select, do and answer.
* `comesTo_of_sweeps`: the outcome of such a request is told by the course of its sweep.
* `sweep_stops_after_prefix`: what such a request leaves behind, however it ends.
-/

namespace TaggedMemos

open Collection Service TaggedMemos.Action

/-! ### The memos listed -/

/-- The memos of a user that are no comments. -/
def Collection.own (user : UserId) (memos : Collection) : List Memo :=
  memos.filter fun m => m.creator = user ∧ m.parent = none

/-- The memos of a user that are no comments and whose tags meet a condition. -/
def Collection.matching (user : UserId) (filter : TagFilter) (memos : Collection) : List Memo :=
  (memos.own user).filter (filter.admits ·.payload)

section

variable {user : UserId} {memos : Collection} {m : Memo} {filter : TagFilter}

/-- The own memos of a user are those created by the user that are no comments. -/
theorem mem_own : m ∈ memos.own user ↔ m ∈ memos ∧ m.creator = user ∧ m.parent = none := by
  simp [own]

/-- A query for the memos of a user selects the own ones. -/
theorem select_ownedBy : (Query.ownedBy user).select memos = memos.own user := by
  refine List.filter_congr fun m _ => ?_
  rw [Bool.eq_iff_iff]
  simp [Query.admits, Query.ownedBy, Memo.isComment, eq_comm (b := user)]

/-- With a filter for tags, it selects those that match. -/
theorem select_withTag :
    ((Query.ownedBy user).withTag filter).select memos = memos.matching user filter := by
  rw [matching, ← select_ownedBy]
  refine .trans (List.filter_congr fun m _ => ?_) List.filter_filter.symm
  simp [Query.admits, Query.ownedBy, Query.withTag, Bool.and_comm]

/-- The memos listed are stored, and they are no comments. -/
theorem listed_of_mem_matching (member : m ∈ memos.matching user filter) :
    m ∈ memos ∧ m.parent = none := by
  obtain ⟨member, -, topLevel⟩ := mem_own.mp (List.mem_filter.mp member).1
  exact ⟨member, topLevel⟩

/-- Memos with distinct identifiers are distinct, also those that match. -/
theorem nodup_matching (distinct : (ids memos).Nodup) : (memos.matching user filter).Nodup :=
  ((distinct.of_map _).filter _).filter _

end

/-! ### Requests that sweep -/

/-- The memos that an answer to a sweep is about. -/
def Answer.swept : Answer → List MemoId
  | .renamed result => result.memos
  | .tagDeleted deletion => deletion.memos
  | .batchDeleted deletion => deletion.memos
  | _ => []

/-- A request that sweeps, with arguments that are accepted: what the tags of the memos have to meet
that it selects, what it does to each of them, and what comes out if it does so to all of them. -/
inductive Request.Sweeps :
    Request → TagFilter → Treatment → (List Memo → Except Fault Answer) → Prop
  /-- A tag is renamed. It is a fault if no memo carries it. -/
  | renameTag {oldInput newInput old new : String} {moveChildren : Bool}
      (accepted : TagPath.validate oldInput = .ok old)
      (accepted' : TagPath.validate newInput = .ok new) :
      Sweeps (.renameTag oldInput newInput moveChildren) (.carries old)
        (.rewrite (Tag.replaceMarker · old new))
        fun memos =>
          if memos = [] then .error (.noMemosWithTag old)
          else .ok (.renamed ⟨memos.map (·.id), old, new⟩)
  /-- A tag is removed from the memos that carry it. -/
  | stripTag {input path : String} (accepted : TagPath.validate input = .ok path) :
      Sweeps (.deleteTag input .removeFromContent) (.carries path)
        (.rewrite (Tag.stripMarker · path))
        fun memos => .ok (.tagDeleted ⟨memos.map (·.id), if memos = [] then [] else [path]⟩)
  /-- A tag is deleted together with the memos that carry it. -/
  | deleteTag {input path : String} (accepted : TagPath.validate input = .ok path) :
      Sweeps (.deleteTag input .deleteMemos) (.carries path) .delete
        fun memos => .ok (.tagDeleted ⟨memos.map (·.id), if memos = [] then [] else [path]⟩)
  /-- The memos are deleted that carry a tag, or one below it. -/
  | batchDelete {input path : String} {children dryRun : Bool}
      (accepted : TagPath.validate input = .ok path) :
      Sweeps (.batchDelete input children dryRun)
        (if children then .carriesWithin path else .carries path)
        (if dryRun then .spare else .delete)
        fun memos => .ok (.batchDeleted
          ⟨memos.map (·.id), memos.length, pathsMet path children memos, dryRun⟩)

/-- Whether a request is one that sweeps, or would if its arguments were accepted. -/
def Request.isSweep : Request → Bool
  | .renameTag .. | .deleteTag .. | .batchDelete .. => true
  | _ => false

section

variable {c : Circumstances} {memos : Collection} {filter : TagFilter}

/-- A request for a sweep sweeps, or is refused because of an argument whatever the store holds. -/
theorem sweeps_or_refused {request : Request} (sweep : request.isSweep = true) :
    (∃ filter t answer, request.Sweeps filter t answer) ∨
      ∃ complaint, ∀ c p,
        request.perform.outcome c p = (.error (.invalidArgument complaint), p) := by
  cases request with
  | renameTag oldInput newInput moveChildren =>
      cases accepted : TagPath.validate oldInput with
      | error reason =>
          refine .inr ⟨.badPath "old_tag_path" reason, fun c p => ?_⟩
          simp only [Request.perform, renameTag, outcome_bind, outcome_requirePath, accepted,
            mapError_error]
      | ok old =>
          cases accepted' : TagPath.validate newInput with
          | error reason =>
              refine .inr ⟨.badPath "new_tag_path" reason, fun c p => ?_⟩
              simp only [Request.perform, renameTag, outcome_bind, outcome_requirePath, accepted,
                accepted', mapError_ok, mapError_error]
          | ok new => exact .inl ⟨_, _, _, .renameTag accepted accepted'⟩
  | deleteTag input strategy =>
      cases accepted : TagPath.validate input with
      | error reason =>
          refine .inr ⟨.badPath "tag_path" reason, fun c p => ?_⟩
          simp only [Request.perform, deleteTag, outcome_bind, outcome_requirePath, accepted,
            mapError_error]
      | ok path =>
          cases strategy with
          | unspecified =>
              refine .inr ⟨.strategyMissing, fun c p => ?_⟩
              simp only [Request.perform, deleteTag, outcome_bind, outcome_requirePath, accepted,
                mapError_ok, if_true, outcome_reject]
          | removeFromContent => exact .inl ⟨_, _, _, .stripTag accepted⟩
          | deleteMemos => exact .inl ⟨_, _, _, .deleteTag accepted⟩
  | batchDelete input children dryRun =>
      cases accepted : TagPath.validate input with
      | error reason =>
          by_cases typed : input.isEmpty
          · refine .inr ⟨.pathMissing, fun c p => ?_⟩
            simp only [Request.perform, batchDelete, typed, if_true, outcome_bind, outcome_reject]
          · refine .inr ⟨.badPath "tag_path" reason, fun c p => ?_⟩
            simp only [Request.perform, batchDelete, typed, Bool.false_eq_true, if_false,
              outcome_bind, outcome_requirePath, accepted, mapError_error]
      | ok path => exact .inl ⟨_, _, _, .batchDelete accepted⟩
  | _ => cases sweep

/-- The memos that match are found, and nothing is saved. -/
theorem outcome_ownedWith {p : Progress} (current : p.current = .ok memos) :
    (Store.ownedWith filter).outcome c p = (.ok (memos.matching c.user filter), p) := by
  simp only [Store.ownedWith, Store.list, outcome_bind, outcome_read, outcome_load, current,
    outcome_pure, select_withTag]

/-! What each request comes to is what its sweep comes to. -/

variable {t : Treatment} {selected : List Memo}

/-- A renaming of a tag comes to what its sweep comes to. -/
theorem comesTo_renameTag {oldInput newInput old new : String} {moveChildren : Bool}
    (accepted : TagPath.validate oldInput = .ok old)
    (accepted' : TagPath.validate newInput = .ok new)
    (found : (Store.ownedWith (.carries old)).outcome c { stored := .ok memos } =
      (.ok selected, { stored := .ok memos }))
    (swept : t.ComesTo c memos selected (.ok (selected.map (·.id)))
      ((sweep .tagRenameFailed (fun m => Store.replaceContent m.id
        (Tag.replaceMarker m.content old new)) selected).outcome c { stored := .ok memos })) :
    t.ComesTo c memos selected
      (if selected = [] then .error (.noMemosWithTag old)
        else .ok (.renamed ⟨selected.map (·.id), old, new⟩))
      ((Request.renameTag oldInput newInput moveChildren).perform.outcome c
        { stored := .ok memos }) := by
  rw [Request.perform, renameTag]
  by_cases none : selected = []
  · subst none
    simp only [outcome_bind, outcome_requirePath, accepted, accepted', mapError_ok, found,
      List.isEmpty_nil, if_true, outcome_throw]
    exact ⟨rfl, Treatment.applyTo_nil.symm, by cases t <;> rfl⟩
  · rw [if_neg none]
    refine Treatment.ComesTo.bind_quiet ?_ (.pure _) fun _ => rfl
    rw [outcome_bind_of_ok (outcome_requirePath_of_ok accepted),
      outcome_bind_of_ok (outcome_requirePath_of_ok accepted'), outcome_bind_of_ok found,
      if_neg (mt List.isEmpty_iff.mp none)]
    exact swept.bind_quiet ((Quiet.note _).bind fun _ => .pure _) fun _ => rfl

/-- A deletion of a tag comes to what its sweep comes to. -/
theorem comesTo_deleteTag {input path : String} {strategy : DeleteStrategy} {p : Progress}
    (accepted : TagPath.validate input = .ok path) (chosen : strategy ≠ .unspecified)
    (found : (Store.ownedWith (.carries path)).outcome c p = (.ok selected, p))
    (swept : t.ComesTo c memos selected (.ok (selected.map (·.id)))
      ((sweep .tagDeleteFailed (deletionOf strategy path) selected).outcome c p)) :
    t.ComesTo c memos selected
      (.ok (.tagDeleted ⟨selected.map (·.id), if selected = [] then [] else [path]⟩))
      ((Request.deleteTag input strategy).perform.outcome c p) := by
  refine Treatment.ComesTo.bind_quiet (x := deleteTag _ _) ?_ (.pure _) fun _ => rfl
  rw [deleteTag, outcome_bind_of_ok (outcome_requirePath_of_ok accepted), if_neg chosen,
    outcome_bind_of_ok found]
  refine swept.bind_quiet ((Quiet.note _).bind fun _ => .pure _) fun _ => ?_
  simp only [outcome_bind, outcome_note, outcome_pure, List.isEmpty_map, List.isEmpty_iff]

/-- A deletion of the memos below a path comes to what its sweep comes to. -/
theorem comesTo_batchDelete {input path : String} {children dryRun : Bool} {p : Progress}
    (accepted : TagPath.validate input = .ok path)
    (found : (Store.ownedWith (if children then .carriesWithin path else .carries path)).outcome
      c p = (.ok selected, p))
    (swept : t.ComesTo c memos selected (.ok (selected.map (·.id)))
      ((sweep .batchDeleteFailed (fun m => if dryRun then return () else Store.delete m.id)
        selected).outcome c p)) :
    t.ComesTo c memos selected
      (.ok (.batchDeleted
        ⟨selected.map (·.id), selected.length, pathsMet path children selected, dryRun⟩))
      ((Request.batchDelete input children dryRun).perform.outcome c p) := by
  have typed : ¬ input.isEmpty := fun empty => by
    rw [String.isEmpty_iff.mp empty] at accepted
    cases accepted
  refine Treatment.ComesTo.bind_quiet (x := batchDelete _ _ _) ?_ (.pure _) fun _ => rfl
  rw [batchDelete, if_neg typed, outcome_bind_of_ok (outcome_requirePath_of_ok accepted),
    outcome_bind_of_ok found]
  refine swept.bind_quiet ((Quiet.note _).bind fun _ => .pure _) fun _ => ?_
  simp only [outcome_bind, outcome_note, outcome_pure, List.length_map]

/-- **The outcome of a request that sweeps** is told by the course of its sweep. -/
theorem comesTo_of_sweeps {request : Request} {answer : List Memo → Except Fault Answer}
    (sweeps : request.Sweeps filter t answer) (distinct : (ids memos).Nodup) :
    t.ComesTo c memos (memos.matching c.user filter) (answer (memos.matching c.user filter))
      (Call.outcome ⟨c, request⟩ memos) := by
  have found : (Store.ownedWith filter).outcome c { stored := .ok memos } =
      (.ok (memos.matching c.user filter), { stored := .ok memos }) := outcome_ownedWith rfl
  have listed : ∀ m ∈ memos.matching c.user filter, m ∈ memos ∧ m.parent = none :=
    fun m => listed_of_mem_matching
  have swept := t.comesTo_sweep (c := c) distinct (nodup_matching distinct) listed
  cases sweeps with
  | renameTag accepted accepted' => exact comesTo_renameTag accepted accepted' found (swept _)
  | stripTag accepted => exact comesTo_deleteTag accepted (by decide) found (swept _)
  | deleteTag accepted => exact comesTo_deleteTag accepted (by decide) found (swept _)
  | @batchDelete input path children dryRun accepted =>
      cases dryRun with
      | true => exact comesTo_batchDelete accepted found (swept _)
      | false => exact comesTo_batchDelete accepted found (swept _)

end

/-- An answer to a sweep is about all the memos selected. -/
theorem Request.Sweeps.answer_eq_ok {request : Request} {filter : TagFilter} {t : Treatment}
    {answer : List Memo → Except Fault Answer} (sweeps : request.Sweeps filter t answer)
    {memos : List Memo} (nonempty : memos ≠ []) :
    ∃ a, answer memos = .ok a ∧ a.swept = memos.map (·.id) := by
  cases sweeps with
  | renameTag _ _ => exact ⟨_, if_neg nonempty, rfl⟩
  | stripTag _ => exact ⟨_, rfl, rfl⟩
  | deleteTag _ => exact ⟨_, rfl, rfl⟩
  | batchDelete _ => exact ⟨_, rfl, rfl⟩

/-- **What a sweep leaves behind**, however it ends: some first memos of those selected are treated,
and everything else is as it was. If these are not all of them, then the next one tells the fault:
the caller has given up before it, or it could not be treated. -/
theorem sweep_stops_after_prefix {call : Call} {memos : Collection} {filter : TagFilter}
    {t : Treatment} {answer : List Memo → Except Fault Answer}
    (sweeps : call.request.Sweeps filter t answer) (distinct : (ids memos).Nodup)
    (nonempty : memos.matching call.circumstances.user filter ≠ []) :
    let c := call.circumstances
    ∃ treated rest stop, memos.matching c.user filter = treated ++ rest ∧
      call.after memos = t.applyTo c treated memos ∧
      (∀ n m, treated[n]? = some m →
        c.cancelled (t.saves n) = false ∧ t.obstacle c n m = none) ∧
      t.Stops c treated.length rest stop ∧
      match stop with
      | some fault => (call.outcome memos).1 = .error fault
      | none => rest = [] ∧ ∃ a, (call.outcome memos).1 = .ok a ∧ answer treated = .ok a ∧
          a.swept = treated.map (·.id) := by
  intro c
  obtain ⟨given, after, -⟩ := comesTo_of_sweeps sweeps distinct
  obtain ⟨rest, split, free, stops⟩ := t.course_stops c 0 (memos.matching c.user filter)
  generalize t.course c 0 (memos.matching c.user filter) = course at given after split free stops
  obtain ⟨treated, stop⟩ := course
  simp only [Nat.zero_add] at free stops
  refine ⟨treated, rest, stop, split, after, free, stops, ?_⟩
  cases stops with
  | finished =>
      rw [List.append_nil] at split
      obtain ⟨a, answered, about⟩ := sweeps.answer_eq_ok (split ▸ nonempty)
      exact ⟨rfl, a, by rw [given, split, answered], answered, about⟩
  | cancelled _ => exact given
  | failed _ _ => exact given

/-- A memo of the user 1 that carries the tag `/t`, or a comment that does. -/
def tagged (n : Nat) (parent : Option MemoId := none) : Memo where
  id := .ofNat n
  creator := 1
  parent
  content := "#t"
  payload := { tags := ["/t"] }
  created := default
  updated := default

/-- The second save is refused: the first memo is gone with the comment on it, and the others are
left. -/
theorem sweep_stops_after_prefix_refused :
    let memos : Collection := [tagged 1, tagged 2 (some (.ofNat 1)), tagged 3, tagged 4]
    let refusal : Fault := .store .simulated
    let call : Call :=
      { circumstances :=
          { user := 1, saveFault := fun n => if n = 1 then some refusal else none,
            freshId := default, now := default }
        request := .deleteTag "t" .deleteMemos }
    (call.outcome memos).1 = .error (.memoWrite (.ofNat 3) refusal) ∧
      call.after memos = [tagged 3, tagged 4] ∧
      ∃ treated rest, [tagged 1, tagged 3, tagged 4] = treated ++ rest ∧
        [tagged 3, tagged 4] = Treatment.delete.applyTo call.circumstances treated memos := by
  intro memos refusal call
  have left : call.after memos = [tagged 3, tagged 4] := by decide +kernel
  have selected : memos.matching 1 (.carries "/t") = [tagged 1, tagged 3, tagged 4] := by
    decide +kernel
  have sweeps : call.request.Sweeps (.carries "/t") .delete _ := .deleteTag (by decide +kernel)
  have distinct : (ids memos).Nodup := by decide +kernel
  obtain ⟨treated, rest, -, split, after, -, -, -⟩ :=
    sweep_stops_after_prefix sweeps distinct (by decide +kernel)
  exact ⟨by decide +kernel, left, treated, rest, selected ▸ split, left ▸ after⟩

end TaggedMemos
