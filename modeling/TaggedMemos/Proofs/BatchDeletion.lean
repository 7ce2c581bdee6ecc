import TaggedMemos.Proofs.Path
import TaggedMemos.Proofs.Sweeps

/-!
# Dry Runs

A dry run of a batch deletion lists the memos that would be deleted and deletes none of them. Where
neither the medium nor the caller ends the batch early, the real run deletes just these: none of
them is a comment, so none goes away with another one before its turn, and nothing but the comments
on them goes away besides.

## Main results

* `matching_batch`: the memos that a batch deletion selects.
* `dryRun_predicts`: a dry run tells what the real one does.
-/

namespace TaggedMemos

open Collection Service

/-- What the tags of a memo have to meet for a batch deletion to select it. -/
theorem TagFilter.admits_batch {path : String} {children : Bool} {payload : Payload} :
    (if children then carriesWithin path else carries path).admits payload = true ↔
      ∃ tag ∈ payload.tags, tag = path ∨ children = true ∧ path.toList ++ ['/'] <+: tag.toList := by
  cases children with
  | true => simp [admits, TagPath.isSameOrBelow_iff]
  | false => simp [admits, Payload.hasTag]

/-- The memos that a batch deletion is to delete: those of the caller that are no comments and carry
the path, or with `children` one below it. -/
def Collection.batch (user : UserId) (path : String) (children : Bool) (memos : Collection) :
    List Memo :=
  memos.filter fun m => m.creator = user ∧ m.parent = none ∧
    ∃ tag ∈ m.payload.tags, tag = path ∨ children = true ∧ path.toList ++ ['/'] <+: tag.toList

/-- The memos that a batch deletion selects are those that it is to delete. -/
theorem matching_batch {user : UserId} {path : String} {children : Bool} {memos : Collection} :
    memos.matching user (if children then .carriesWithin path else .carries path) =
      memos.batch user path children := by
  rw [matching, own, batch, List.filter_filter]
  refine List.filter_congr fun m _ => ?_
  rw [Bool.eq_iff_iff, Bool.and_eq_true, TagFilter.admits_batch]
  simp only [decide_eq_true_iff]
  rw [and_comm, and_assoc]

/-- **A dry run tells what the real run does**, where neither the medium nor the caller ends a run
early: it saves nothing and gives the same answer. The real run saves once for each memo selected,
and leaves every memo in its place that is neither selected nor a comment on one that is. -/
theorem dryRun_predicts {c : Circumstances} {memos : Collection} {input path : String}
    {children : Bool} (accepted : TagPath.validate input = .ok path)
    (distinct : (ids memos).Nodup) (writable : ∀ n, c.saveFault n = none)
    (active : ∀ n, c.cancelled n = false) :
    let run := fun dryRun => (⟨c, .batchDelete input children dryRun⟩ : Call)
    let selected := memos.batch c.user path children
    let answer := fun dryRun => Answer.batchDeleted
      ⟨selected.map (·.id), selected.length, pathsMet path children selected, dryRun⟩
    (selected.map (·.id)).Nodup ∧
      ((run true).outcome memos).1 = .ok (answer true) ∧ (run true).saved memos = [] ∧
      ((run false).outcome memos).1 = .ok (answer false) ∧
      ((run false).saved memos).length = selected.length ∧
      (run false).after memos =
        memos.filter fun m => m ∉ selected ∧ ∀ m' ∈ selected, m.parent ≠ some m'.id := by
  intro run selected answer
  have once : (selected.map (·.id)).Nodup := distinct.sublist (List.filter_sublist.map _)
  -- Nothing is in the way of either run, so each of them goes through all memos selected.
  have comes : ∀ dryRun, ((run dryRun).outcome memos).1 = .ok (answer dryRun) ∧
      (run dryRun).after memos =
        (if dryRun then .spare else .delete : Treatment).applyTo c selected memos ∧
      ((run dryRun).saved memos).length =
        (if dryRun then .spare else .delete : Treatment).saves selected.length := by
    intro dryRun
    have sweeps : (run dryRun).request.Sweeps _ _ _ := .batchDelete accepted
    have free : ∀ n m, (if dryRun then .spare else .delete : Treatment).obstacle c n m = none := by
      cases dryRun with
      | true => exact fun _ _ => rfl
      | false => exact fun n _ => writable n
    obtain ⟨given, after, saves⟩ := comesTo_of_sweeps sweeps distinct
    rw [matching_batch, Treatment.course_of_free active free] at given after saves
    exact ⟨given, after, saves⟩
  obtain ⟨given, -, saves⟩ := comes true
  obtain ⟨given', after, saves'⟩ := comes false
  exact ⟨once, given, List.length_eq_zero_iff.mp saves, given', saves', after⟩

/-- The comment goes away with the memo that it is on, although it carries the tag itself. -/
theorem dryRun_predicts_comment :
    let memos : Collection := [tagged 1, tagged 2 (some (.ofNat 1)), tagged 3]
    let call : Call :=
      { circumstances := { user := 1, freshId := default, now := default }
        request := .batchDelete "t/" true false }
    (call.outcome memos).1 =
        .ok (.batchDeleted ⟨[.ofNat 1, .ofNat 3], 2, ["/t"], false⟩) ∧
      call.after memos = [] := by
  intro memos call
  have accepted : TagPath.validate "t/" = .ok "/t" := by decide +kernel
  have distinct : (ids memos).Nodup := by decide +kernel
  obtain ⟨-, -, -, given, -, after⟩ := dryRun_predicts (c := call.circumstances) accepted distinct
    (fun _ => rfl) fun _ => rfl
  have selected : memos.batch 1 "/t" true = [tagged 1, tagged 3] := by decide +kernel
  rw [selected] at given after
  exact ⟨given.trans (by decide +kernel), after.trans (by decide +kernel)⟩

end TaggedMemos
