import TaggedMemos.Proofs.BatchDeletion
import TaggedMemos.Proofs.EditedPayload

/-!
# The Paths a Batch Deletion Reports

A batch deletion reports the paths that it met on the memos it deletes, or would delete. The path
asked for is written down with the first memo, whatever the tags of that memo are. With an exact
path this makes no difference, because every memo selected carries it. With the paths below it, it
may be that no memo carries the path itself, and it is reported all the same. Nothing else is
reported that was not met, and nothing is left out.

## Main results

* `pathsMet_eq`: the paths written down memo by memo, said at once.
* `pathsMet_eq_pathsCarried`: how they compare with the paths that the memos carry.
* `batch_reports_paths`: what a batch deletion reports.
* `batch_reports_uncarried`: a path that no memo carries is reported.
-/

namespace TaggedMemos

open Collection Service

variable {path tag : String} {children : Bool} {ms : List Memo}

/-! ### Paths on memos -/

/-- Whether a tag is what a batch deletion looks for: the path, or with `children` one below it. -/
def IsSought (path : String) (children : Bool) (tag : String) : Prop :=
  tag = path ∨ children = true ∧ path.toList ++ ['/'] <+: tag.toList

instance (path : String) (children : Bool) : DecidablePred (IsSought path children) :=
  fun _ => inferInstanceAs (Decidable (_ ∨ _))

/-- The tags of memos that a batch deletion looks for, in the order in which they are met. -/
def soughtTags (path : String) (children : Bool) (ms : List Memo) : List String :=
  (ms.flatMap (·.payload.tags)).filter (IsSought path children)

/-- The paths that memos carry among those that a batch deletion looks for: first the path asked
for, if it is carried, and then the others in the order in which they are met first. -/
def pathsCarried (path : String) (children : Bool) (ms : List Memo) : List String :=
  let tags := soughtTags path children ms
  (if path ∈ tags then [path] else []) ++ (tags.filter (· ≠ path)).eraseDups

/-- A tag is sought if a memo carries it and the request is about it. -/
theorem mem_soughtTags :
    tag ∈ soughtTags path children ms ↔
      IsSought path children tag ∧ ∃ m ∈ ms, tag ∈ m.payload.tags := by
  rw [soughtTags, List.mem_filter, decide_eq_true_iff, List.mem_flatMap, and_comm]

/-- What is carried is listed, and nothing else. -/
theorem mem_pathsCarried :
    tag ∈ pathsCarried path children ms ↔
      IsSought path children tag ∧ ∃ m ∈ ms, tag ∈ m.payload.tags := by
  rw [← mem_soughtTags, pathsCarried, List.mem_append, List.mem_eraseDups, List.mem_filter,
    decide_eq_true_iff]
  by_cases same : tag = path
  · subst same
    by_cases carried : tag ∈ soughtTags tag children ms
    · simp [carried]
    · simp [carried]
  · by_cases carried : path ∈ soughtTags path children ms
    · simp [carried, same]
    · simp [carried, same]

/-! ### Paths written down -/

/-- The tags of one more memo are written down behind the path asked for. -/
theorem addPathsMet_eq (path : String) (children : Bool) (met tags : List String) :
    addPathsMet path children (firsts (path :: met)) tags =
      firsts (path :: (met ++ tags.filter (IsSought path children))) := by
  have known : path ∈ firsts (path :: met) := mem_firsts.mpr List.mem_cons_self
  have filled : (firsts (path :: met)).isEmpty = false :=
    List.isEmpty_eq_false_iff.mpr (List.ne_nil_of_mem known)
  rw [addPathsMet, filled, if_neg Bool.false_ne_true, ← List.cons_append, firsts, firsts,
    List.foldl_append]
  cases children with
  | true =>
      rw [if_pos rfl]
      congr 1
      refine List.filter_congr fun tag _ => ?_
      rw [Bool.eq_iff_iff, TagPath.isSameOrBelow_iff, decide_eq_true_iff]
      simp [IsSought]
  | false =>
      rw [if_neg Bool.false_ne_true]
      change path ∈ (path :: met).foldl addOnce [] at known
      generalize (path :: met).foldl addOnce [] = met at known
      -- Without `children` only the path itself is looked for, and it is known.
      have same : ∀ tag ∈ tags.filter (IsSought path false), tag = path := fun tag member => by
        simpa [IsSought] using (List.mem_filter.mp member).2
      generalize tags.filter (IsSought path false) = others at same
      induction others with
      | nil => rfl
      | cons tag others ih =>
          have here : addOnce met tag = met := by
            rw [same tag List.mem_cons_self, addOnce, if_pos (List.contains_iff_mem.mpr known)]
          rw [List.foldl_cons, here]
          exact ih fun tag member => same tag (List.mem_cons_of_mem _ member)

/-- **The paths written down memo by memo** are the path asked for and the tags looked for, each at
its first occurrence, if there is any memo. -/
theorem pathsMet_eq (path : String) (children : Bool) (ms : List Memo) :
    pathsMet path children ms =
      if ms = [] then [] else firsts (path :: soughtTags path children ms) := by
  have onward : ∀ (ms : List Memo) met,
      ms.foldl (fun met m => addPathsMet path children met m.payload.tags)
          (firsts (path :: met)) =
        firsts (path :: (met ++ soughtTags path children ms)) := by
    intro ms
    induction ms with
    | nil => simp [soughtTags]
    | cons m ms ih =>
        intro met
        rw [List.foldl_cons, addPathsMet_eq, ih]
        simp [soughtTags]
  cases ms with
  | nil => rfl
  | cons m ms =>
      have first : addPathsMet path children [] m.payload.tags =
          addPathsMet path children (firsts (path :: [])) m.payload.tags := rfl
      rw [pathsMet, List.foldl_cons, first, ← List.foldl_cons, onward (m :: ms)]
      rfl

/-- **The paths written down are those carried**, and the path asked for if there is a memo but none
that carries it. -/
theorem pathsMet_eq_pathsCarried (path : String) (children : Bool) (ms : List Memo) :
    pathsMet path children ms =
      if ms = [] ∨ ∃ m ∈ ms, path ∈ m.payload.tags then pathsCarried path children ms
      else path :: pathsCarried path children ms := by
  have carried : path ∈ soughtTags path children ms ↔ ∃ m ∈ ms, path ∈ m.payload.tags := by
    rw [mem_soughtTags]
    exact and_iff_right (.inl rfl)
  rw [pathsMet_eq, firsts_eq_eraseDups, List.eraseDups_cons]
  by_cases none : ms = []
  · subst none
    rfl
  · rw [if_neg none, pathsCarried]
    simp only [none, false_or, ← carried]
    have others : (soughtTags path children ms).filter (fun tag => !tag == path) =
        (soughtTags path children ms).filter (· ≠ path) :=
      List.filter_congr fun tag _ => by by_cases same : tag = path <;> simp [same]
    split
    · rw [others, List.singleton_append]
    · rw [others, List.nil_append]

/-! ### Reports -/

section Reports

open TaggedMemos.Action

variable {c : Circumstances} {memos : Collection} {input : String} {dryRun : Bool}

/-- A batch deletion that succeeds, of whatever store, is about the memos that it is to delete. -/
theorem answer_of_batchDelete {answer : BatchDeletion}
    (accepted : TagPath.validate input = .ok path)
    (succeeded : (Call.outcome ⟨c, .batchDelete input children dryRun⟩ memos).1 =
      .ok (.batchDeleted answer)) :
    let selected := memos.batch c.user path children
    answer = ⟨selected.map (·.id), selected.length, pathsMet path children selected, dryRun⟩ := by
  intro selected
  have typed : ¬ input.isEmpty := fun empty => by
    rw [String.isEmpty_iff.mp empty] at accepted
    cases accepted
  have found : (Store.ownedWith (if children then .carriesWithin path else .carries path)).outcome
      c { stored := .ok memos } = (.ok selected, { stored := .ok memos }) :=
    (outcome_ownedWith rfl).trans (by rw [matching_batch])
  rw [Call.outcome, Request.perform, outcome_bind, batchDelete, if_neg typed,
    outcome_bind_of_ok (outcome_requirePath_of_ok accepted), outcome_bind_of_ok found, sweep]
    at succeeded
  simp only [outcome_bind] at succeeded
  generalize (sweepFrom _ _ 0 selected).outcome c { stored := .ok memos } = swept at succeeded
  rcases swept with ⟨fault | _, q⟩
  · cases succeeded
  · rw [← Answer.batchDeleted.inj (Except.ok.inj succeeded), List.length_map]

/-- **What a batch deletion reports**, if it succeeds, on any store. It reports each path once:
those that the memos selected carry, the path asked for first and the others in the order in which
they are met. If there are memos selected of which none carries the path asked for, then that path
stands in front of the others all the same; this happens only with `children`. So a report tells
what was met exactly if nothing was selected, or a memo that carries the path itself. -/
theorem batch_reports_paths {answer : BatchDeletion}
    (accepted : TagPath.validate input = .ok path)
    (succeeded : (Call.outcome ⟨c, .batchDelete input children dryRun⟩ memos).1 =
      .ok (.batchDeleted answer)) :
    let selected := memos.batch c.user path children
    let met := fun tag => IsSought path children tag ∧ ∃ m ∈ selected, tag ∈ m.payload.tags
    answer.memos = selected.map (·.id) ∧ answer.paths.Nodup ∧
      (answer.paths = if selected = [] ∨ met path then pathsCarried path children selected
        else path :: pathsCarried path children selected) ∧
      ((∀ tag, tag ∈ answer.paths ↔ met tag) ↔ selected = [] ∨ met path) ∧
      (children = false → selected = [] ∨ met path) := by
  intro selected met
  obtain rfl := answer_of_batchDelete accepted succeeded
  have carried : met path ↔ ∃ m ∈ selected, path ∈ m.payload.tags := and_iff_right (.inl rfl)
  have report := pathsMet_eq_pathsCarried path children selected
  simp only [← carried] at report
  refine ⟨rfl, ?_, report, ?_, fun exact => ?_⟩
  · rw [pathsMet_eq]
    split
    · exact List.nodup_nil
    · exact nodup_firsts _
  · change (∀ tag, tag ∈ pathsMet path children selected ↔ met tag) ↔ _
    rw [report]
    split
    · next told => exact iff_of_true (fun tag => mem_pathsCarried) told
    · next untold =>
        refine iff_of_false (fun all => untold (.inr ?_)) untold
        exact (all path).mp List.mem_cons_self
  · cases whole : selected with
    | nil => exact .inl rfl
    | cons m others =>
        have member : m ∈ selected := whole ▸ List.mem_cons_self
        obtain ⟨-, -, -, tag, on, sought⟩ := by simpa [selected, batch] using member
        obtain rfl : tag = path :=
          sought.resolve_right fun below => absurd below.1 (by simp [exact])
        exact .inr (carried.mpr ⟨m, member, on⟩)

end Reports

/-- The comment and the memo of another user do not count. -/
theorem batch_reports_paths_below :
    let memos : Collection :=
      [{ tagged 1 with payload := { tags := ["/u", "/t/b", "/t/a/c"] } },
        { tagged 2 (some (.ofNat 1)) with payload := { tags := ["/t/d"] } },
        { tagged 3 with payload := { tags := ["/t/a/c", "/t"] } },
        { tagged 4 with creator := 2 }]
    let call : Call :=
      { circumstances := { user := 1, freshId := default, now := default }
        request := .batchDelete "t/" true false }
    ∃ answer, (call.outcome memos).1 = .ok (.batchDeleted answer) ∧
      answer.memos = [.ofNat 1, .ofNat 3] ∧ answer.paths = ["/t", "/t/b", "/t/a/c"] := by
  intro memos call
  let answer : BatchDeletion := ⟨[.ofNat 1, .ofNat 3], 2, ["/t", "/t/b", "/t/a/c"], false⟩
  have accepted : TagPath.validate "t/" = .ok "/t" := by decide +kernel
  have succeeded : (call.outcome memos).1 = .ok (.batchDeleted answer) := by decide +kernel
  obtain ⟨swept, -, report, -⟩ := batch_reports_paths (c := call.circumstances) accepted succeeded
  have selected : (memos.batch 1 "/t" true).map (·.id) = [.ofNat 1, .ofNat 3] := by decide +kernel
  refine ⟨answer, succeeded, swept.trans selected, report.trans ?_⟩
  rw [if_pos (.inr (by decide +kernel))]
  decide +kernel

/-- A memo that carries a tag below the path, and not the path itself: the path is reported,
although no memo carries it. -/
theorem batch_reports_uncarried :
    let m : Memo := { tagged 1 with content := "#t/a", payload := { tags := ["/t/a"] } }
    let call : Call :=
      { circumstances := { user := 1, freshId := default, now := default }
        request := .batchDelete "t" true true }
    TagPath.validate "t" = .ok "/t" ∧
      (call.outcome [m]).1 = .ok (.batchDeleted ⟨[m.id], 1, ["/t", "/t/a"], true⟩) ∧
      ¬ ∃ m' ∈ [m], "/t" ∈ m'.payload.tags := by
  decide +kernel

end TaggedMemos
