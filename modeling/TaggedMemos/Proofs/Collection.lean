import Mathlib.Data.List.Nodup
import TaggedMemos.Memo.Collection

/-!
# Collections and Identifiers

How adding, changing and removing a memo act on what a collection holds. `find?` and `modify`
both go for the first memo with an identifier. Where identifiers are pairwise distinct, that is
the only one, and changing it is changing every memo with the identifier.

## Main results

* `find?_eq_some`: what is found under an identifier.
* `mem_modify`, `map_modify`, `find?_modify_self`: what a change leaves behind.
* `modify_eq_map`, `modify_eq_replace`, `without_eq_filter`: changes where identifiers are distinct.
* `ids_modify`, `nodup_ids_append`, `nodup_ids_without`: identifiers stay distinct.
-/

namespace TaggedMemos.Collection

variable {memos : Collection} {id : MemoId} {m : Memo} {change : Memo → Memo}

/-- The identifiers of a collection, in order. -/
def ids (memos : Collection) : List MemoId :=
  memos.map (·.id)

/-- The identifiers of a collection with the texts of the memos, in order. -/
def texts (memos : Collection) : List (MemoId × String) :=
  memos.map fun m => (m.id, m.content)

/-- The texts of a collection are listed under the identifiers of its memos, in their order. -/
theorem map_fst_texts (memos : Collection) : (texts memos).map Prod.fst = ids memos := by
  simp [texts, ids]

/-! ### Finding -/

/-- What is found under an identifier is in the collection and has the identifier. -/
theorem find?_eq_some (found : memos.find? id = some m) : m ∈ memos ∧ m.id = id := by
  induction memos with
  | nil => simp [find?] at found
  | cons first rest ih =>
      by_cases same : first.id = id
      · simp only [find?, same, if_true, Option.some.injEq] at found
        subst found
        exact ⟨by simp, same⟩
      · simp only [find?, same, if_false] at found
        obtain ⟨member, named⟩ := ih found
        exact ⟨List.mem_cons_of_mem _ member, named⟩

/-- Nothing is found under an identifier exactly if no memo has it. -/
theorem find?_eq_none : memos.find? id = none ↔ id ∉ ids memos := by
  induction memos with
  | nil => simp [find?, ids]
  | cons first rest ih =>
      by_cases same : first.id = id
      · simp [find?, ids, same]
      · simp only [find?, same, if_false, ih, ids, List.map_cons, List.mem_cons, not_or]
        exact ⟨fun h => ⟨Ne.symm same, h⟩, fun h => h.2⟩

/-- Whether an identifier is in use is told by the list of identifiers. -/
theorem hasId_iff : memos.hasId id = true ↔ id ∈ ids memos := by
  rw [hasId, Option.isSome_iff_ne_none, ne_eq, find?_eq_none, Classical.not_not]

/-! ### Changing -/

/-- A memo after a change is one from before, or the changed one. -/
theorem mem_modify {m' : Memo} (member : m' ∈ memos.modify id change) :
    m' ∈ memos ∨ ∃ m, memos.find? id = some m ∧ m' = change m := by
  induction memos with
  | nil => simp [modify] at member
  | cons first rest ih =>
      by_cases same : first.id = id
      · simp only [modify, same, if_true, List.mem_cons] at member
        rcases member with rfl | member
        · exact .inr ⟨first, by simp [find?, same], rfl⟩
        · exact .inl (List.mem_cons_of_mem _ member)
      · simp only [modify, same, if_false, List.mem_cons] at member
        rcases member with rfl | member
        · exact .inl (by simp)
        · rcases ih member with before | ⟨m, found, rfl⟩
          · exact .inl (List.mem_cons_of_mem _ before)
          · exact .inr ⟨m, by simp [find?, same, found], rfl⟩

/-- A change leaves alone what it leaves alone in the memo changed. -/
theorem map_modify {α : Type} {view : Memo → α}
    (kept : ∀ m, memos.find? id = some m → view (change m) = view m) :
    (memos.modify id change).map view = memos.map view := by
  induction memos with
  | nil => rfl
  | cons first rest ih =>
      by_cases same : first.id = id
      · simp [modify, same, kept first (by simp [find?, same])]
      · simp only [modify, same, if_false, List.map_cons, List.cons.injEq, true_and]
        exact ih fun m found => kept m (by simpa [find?, same] using found)

/-- A change of text or payload keeps all identifiers. -/
theorem ids_modify (change : Change) (now : Timestamp) :
    ids (memos.modify id (change.apply now)) = ids memos :=
  map_modify fun _ _ => rfl

/-- A change of the payload alone keeps all texts. -/
theorem texts_modify (payload : Payload) (now : Timestamp) :
    texts (memos.modify id (Change.apply { payload := some payload } now)) = texts memos :=
  map_modify fun _ _ => rfl

/-- The memo that was changed is found in its changed form. -/
theorem find?_modify_self (kept : ∀ m, (change m).id = m.id) :
    (memos.modify id change).find? id = (memos.find? id).map change := by
  induction memos with
  | nil => rfl
  | cons first rest ih =>
      by_cases same : first.id = id
      · simp [modify, find?, same, kept]
      · simp [modify, find?, same, ih]

/-- Where identifiers are distinct, a change is one of the memo with the identifier and of no other
one. -/
theorem modify_eq_map (distinct : (ids memos).Nodup) :
    memos.modify id change = memos.map fun m => if m.id = id then change m else m := by
  induction memos with
  | nil => rfl
  | cons first rest ih =>
      simp only [ids, List.map_cons, List.nodup_cons] at distinct
      by_cases same : first.id = id
      · subst same
        have others : ∀ m ∈ rest, m.id ≠ first.id := fun m member same =>
          distinct.1 (same ▸ List.mem_map_of_mem member)
        simp only [modify, if_true, List.map_cons, List.cons.injEq, true_and]
        exact (List.map_id'' (fun _ => rfl) rest).symm.trans
          (List.map_congr_left fun m member => (if_neg (others m member)).symm)
      · simp only [modify, same, if_false, List.map_cons, List.cons.injEq, true_and]
        exact ih distinct.2

/-- Where identifiers are distinct, a memo is told by its identifier. -/
theorem id_eq_iff {m' : Memo} (distinct : (ids memos).Nodup) (member : m ∈ memos)
    (member' : m' ∈ memos) : m.id = m'.id ↔ m = m' :=
  ⟨List.inj_on_of_nodup_map distinct member member', congrArg Memo.id⟩

/-- Where identifiers are distinct, a change under the identifier of a memo is one of that memo. -/
theorem modify_eq_replace (distinct : (ids memos).Nodup) (member : m ∈ memos) :
    memos.modify m.id change = memos.map fun x => if x = m then change m else x := by
  rw [modify_eq_map distinct]
  refine List.map_congr_left fun x member' => ?_
  simp only [id_eq_iff distinct member' member]
  by_cases same : x = m
  · rw [if_pos same, if_pos same, same]
  · rw [if_neg same, if_neg same]

/-! ### Adding and removing -/

/-- A memo with an identifier that is not in use may be added. -/
theorem nodup_ids_append (distinct : (ids memos).Nodup) (fresh : memos.hasId m.id = false) :
    (ids (memos ++ [m])).Nodup := by
  rw [ids, List.map_append, List.nodup_append]
  refine ⟨distinct, by simp, fun a used b new same => ?_⟩
  obtain rfl : b = m.id := by simpa using new
  subst same
  simp [hasId_iff.mpr used] at fresh

/-- Where identifiers are distinct, what is removed under the identifier of a memo is that memo with
the comments on it. -/
theorem without_eq_filter (distinct : (ids memos).Nodup) (member : m ∈ memos) :
    memos.without m.id = memos.filter fun x => x ≠ m ∧ x.parent ≠ some m.id := by
  refine List.filter_congr fun x member' => ?_
  rw [Bool.eq_iff_iff]
  simp only [Bool.and_eq_true, bne_iff_ne, ne_eq, decide_eq_true_iff,
    id_eq_iff distinct member' member]

/-- Removing a memo with its comments leaves distinct identifiers distinct. -/
theorem nodup_ids_without (distinct : (ids memos).Nodup) : (ids (memos.without id)).Nodup :=
  distinct.sublist (List.filter_sublist.map _)

end TaggedMemos.Collection
