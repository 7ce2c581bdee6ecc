import TaggedMemos.Proofs.Index
import TaggedMemos.Proofs.Lifetime
import TaggedMemos.Proofs.Path
import TaggedMemos.Proofs.Payload
import TaggedMemos.Proofs.Sweeps

/-!
# Listings and Selections

Who carries a tag is told in two ways. A listing puts together an index of the caller's memos, which
gives every tag a slash in front and records each memo once. A selection compares the tags recorded
with the memos as they are, with one path or with the front of it. The two agree on every store that
requests have made, since there the memos have distinct identifiers and every tag is recorded with a
slash in front.

## Main results

* `slashed_of_mem_states`: tags are recorded with a slash in front.
* `find?_index`: what a listing finds under a path is what a selection by it gives.
* `listings_agree_with_selections`: listings and selections agree, for every history.
-/

namespace TaggedMemos

open Collection

/-! ### Tags with a slash in front -/

/-- The tags recorded with the memos begin with a slash. -/
def Collection.Slashed (memos : Collection) : Prop :=
  ∀ m ∈ memos, ∀ tag ∈ m.payload.tags, tag.toList.head? = some '/'

section Slashed

variable {call : Call} {start memos memos' : Collection} {payload : Payload} {tag : String}

/-- The tags read from a text begin with a slash. -/
theorem Forest.head?_of_mem_tags {nodes : Forest} (member : tag ∈ nodes.payload.tags) :
    tag.toList.head? = some '/' := by
  rw [tags_payload, mem_firsts, mem_tagPaths] at member
  obtain ⟨raw, -, rfl⟩ := member
  exact TagPath.head?_normalize raw

/-- A change with a payload that was read leaves a slash in front of all tags. -/
theorem Collection.Slashed.modify (slashed : memos.Slashed) {id : MemoId} {change : Change}
    {now : Timestamp} (read : ∃ nodes : Forest, change.payload = some nodes.payload) :
    Slashed (memos.modify id (change.apply now)) := by
  obtain ⟨nodes, read⟩ := read
  intro m member tag carried
  rcases mem_modify member with before | ⟨m, -, rfl⟩
  · exact slashed m before tag carried
  · simp only [Change.apply, read, Option.getD_some] at carried
    exact Forest.head?_of_mem_tags carried

/-- A revision records tags with a slash in front. -/
theorem Revision.slashed (revision : Revision call start memos memos') (slashed : memos.Slashed) :
    memos'.Slashed := by
  cases revision with
  | add _ _ _ _ _ read =>
      obtain ⟨_, nodes, -, read⟩ := read
      intro m member tag carried
      rcases List.mem_append.mp member with old | new
      · exact slashed m old tag carried
      · rw [List.mem_singleton.mp new, read] at carried
        exact Forest.head?_of_mem_tags carried
  | rewrite _ _ _ read =>
      obtain ⟨_, nodes, -, rfl⟩ := read
      exact slashed.modify ⟨nodes, rfl⟩
  | retag _ _ _ => exact slashed.modify ⟨_, rfl⟩
  | refresh _ _ read =>
      obtain ⟨_, nodes, -, rfl⟩ := read
      exact slashed.modify ⟨nodes, rfl⟩
  | remove _ _ _ _ => exact fun m member => slashed m (List.mem_filter.mp member).1

/-- In every state of a history tags are recorded with a slash in front, if they are at the
beginning. -/
theorem slashed_of_mem_states {calls : List Call} (slashed : memos.Slashed) :
    ∀ s ∈ states memos calls, s.Slashed := by
  refine states_induction (fun call _ s before => ?_) slashed
  exact (call.linked_revision s).forall_mem (fun _ _ before revision => revision.slashed before)
    before

end Slashed

/-! ### The index of a user -/

/-- The index of the memos of a user that are no comments. -/
def Collection.index (user : UserId) (memos : Collection) : TagIndex :=
  .ofMemos ((memos.own user).map fun m => (m.id, m.payload.tags))

section Index

variable {user : UserId} {memos : Collection} {path : String} {m : Memo}

/-- **What a listing finds under a path** is what a selection by it gives. -/
theorem find?_index (distinct : (ids memos).Nodup) (slashed : memos.Slashed) (user : UserId)
    (path : String) :
    (memos.index user).find? path =
      TagIndex.entry path ((memos.matching user (.carries path)).map (·.id)) := by
  rw [index, TagIndex.find?_ofMemos, TagIndex.carriers_of_distinct]
  · rw [List.filter_map, List.map_map]
    rfl
  · rw [List.map_map]
    exact distinct.sublist (List.filter_sublist.map _)
  · intro memo member
    obtain ⟨m, own, rfl⟩ := List.mem_map.mp member
    exact slashed m (mem_own.mp own).1

/-- A memo is in the entry of each of its tags, and in no other one. -/
theorem mem_ids_matching (distinct : (ids memos).Nodup) (own : m ∈ memos.own user) :
    m.id ∈ (memos.matching user (.carries path)).map (·.id) ↔ path ∈ m.payload.tags := by
  rw [List.mem_map]
  constructor
  · rintro ⟨m', selected, same⟩
    obtain ⟨own', carried⟩ := List.mem_filter.mp selected
    obtain rfl : m' = m :=
      List.inj_on_of_nodup_map distinct (mem_own.mp own').1 (mem_own.mp own).1 same
    exact List.contains_iff_mem.mp carried
  · exact fun carried =>
      ⟨m, List.mem_filter.mpr ⟨own, List.contains_iff_mem.mpr carried⟩, rfl⟩

end Index

/-! ### What a listing answers -/

section Listings

open TaggedMemos.Action Service

variable {c : Circumstances} {memos : Collection} {p : Progress} {input path : String}

/-- The tags of the caller are those of the caller's own memos. -/
theorem outcome_callerTags (current : p.current = .ok memos) :
    ∃ q, callerTags.outcome c p = (.ok (memos.index c.user), q) := by
  simp only [callerTags, Store.list, outcome_bind, outcome_read, outcome_load, current,
    outcome_pure, outcome_note, select_ownedBy]
  exact ⟨_, rfl⟩

/-- A request for a tag is answered from the index, with its ancestors filled in. -/
theorem getTag_outcome (accepted : TagPath.validate input = .ok path) (withIds : Bool) :
    (Call.outcome ⟨c, .getTag input withIds⟩ memos).1 =
      match (memos.index c.user).withHierarchy.find? path with
      | some node => .ok (.tag (shown withIds node))
      | none => .error (.tagNotFound path) := by
  obtain ⟨q, tags⟩ := outcome_callerTags (c := c) (p := { stored := .ok memos }) rfl
  simp only [Call.outcome, Request.perform, getTag, outcome_bind, outcome_requirePath, accepted,
    mapError_ok, tags]
  cases (memos.index c.user).withHierarchy.find? path <;> rfl

/-- A request for the tags is answered from the index. -/
theorem listTags_outcome (query : TagQuery) :
    (Call.outcome ⟨c, .listTags query⟩ memos).1 =
      .ok (.tags (query.answer (memos.index c.user))) := by
  obtain ⟨q, tags⟩ := outcome_callerTags (c := c) (p := { stored := .ok memos }) rfl
  simp only [Call.outcome, Request.perform, listTags, outcome_bind, tags, outcome_pure]

/-- A request for the memos below a path selects those that carry one of them. -/
theorem listMemos_outcome (accepted : TagPath.validate input = .ok path) :
    (Call.outcome ⟨c, .listMemos (some input)⟩ memos).1 =
      .ok (.memos (memos.matching c.user (.carriesWithin path))) := by
  have current : ({ stored := .ok memos } : Progress).current = .ok memos := rfl
  simp only [Call.outcome, Request.perform, listMemos, outcome_bind, outcome_requirePath, accepted,
    mapError_ok, outcome_ownedWith current, outcome_pure]

/-- A rename finds no memo with the tag exactly if none of the caller's is selected by it. Whatever
else goes wrong has another name. -/
theorem renameTag_finds_none {new newPath : String} {moveChildren : Bool}
    (distinct : (ids memos).Nodup) (accepted : TagPath.validate input = .ok path)
    (accepted' : TagPath.validate new = .ok newPath) :
    (Call.outcome ⟨c, .renameTag input new moveChildren⟩ memos).1 = .error (.noMemosWithTag path) ↔
      memos.matching c.user (.carries path) = [] := by
  have sweeps : (Request.renameTag input new moveChildren).Sweeps (.carries path)
      (.rewrite (Tag.replaceMarker · path newPath)) _ := .renameTag accepted accepted'
  have comes := comesTo_of_sweeps (c := c) sweeps distinct
  generalize memos.matching c.user (.carries path) = selected at comes ⊢
  obtain ⟨rest, split, -, stops⟩ :=
    (Treatment.rewrite (Tag.replaceMarker · path newPath)).course_stops c 0 selected
  rw [comes.value]
  constructor
  · intro failed
    cases stop : ((Treatment.rewrite (Tag.replaceMarker · path newPath)).course c 0 selected).2 with
    | some fault =>
        rw [stop] at failed stops
        obtain rfl := Except.error.inj failed
        cases stops
    | none =>
        rw [stop] at failed
        by_contra nonempty
        simp [nonempty] at failed
  · rintro rfl
    rfl

/-- A full answer to a listing gives each entry of the index with its memos. -/
theorem exists_mem_answer {index : TagIndex} {P : String → List MemoId → Prop} (hierarchy : Bool) :
    (∃ node ∈ TagQuery.answer { withIds := true, withHierarchy := hierarchy } index,
        P node.path node.memoIds) ↔
      ∃ entry ∈ index, P entry.2.path entry.2.memoIds := by
  have same : (TagQuery.answer { withIds := true, withHierarchy := hierarchy } index).map
      (fun node => (node.path, node.memoIds)) =
        index.map fun entry => (entry.2.path, entry.2.memoIds) := by
    cases hierarchy with
    | false => simp [TagQuery.answer, shown]
    | true => simp [TagQuery.answer, shown, TagIndex.withHierarchy, TagIndex.withLinks]
  have either : (∃ view ∈ (TagQuery.answer { withIds := true, withHierarchy := hierarchy }
      index).map (fun node => (node.path, node.memoIds)), P view.1 view.2) ↔
        ∃ view ∈ index.map fun entry => (entry.2.path, entry.2.memoIds), P view.1 view.2 := by
    rw [same]
  simpa only [List.mem_map, exists_exists_and_eq_and] using either

/-- The memos listed with a tag are those in an entry at its path or below it. -/
theorem carriesWithin_iff {m : Memo} (distinct : (ids memos).Nodup) (slashed : memos.Slashed)
    (own : m ∈ memos.own c.user) (hierarchy : Bool) :
    (TagFilter.carriesWithin path).admits m.payload = true ↔
      ∃ node ∈ TagQuery.answer { withIds := true, withHierarchy := hierarchy } (memos.index c.user),
        m.id ∈ node.memoIds ∧ (node.path = path ∨ path.toList ++ ['/'] <+: node.path.toList) := by
  have sorted : (memos.index c.user).Sorted := TagIndex.sorted_ofMemos _
  rw [exists_mem_answer (P := fun path' ids =>
    m.id ∈ ids ∧ (path' = path ∨ path.toList ++ ['/'] <+: path'.toList)) hierarchy]
  simp only [TagFilter.admits, List.any_eq_true, TagPath.isSameOrBelow_iff]
  constructor
  · rintro ⟨tag, carried, within⟩
    have listed := (mem_ids_matching distinct own).mpr carried
    have found := find?_index distinct slashed c.user tag
    rw [TagIndex.entry, if_neg (List.ne_nil_of_mem listed)] at found
    exact ⟨_, sorted.mem_iff.mpr found, listed, within⟩
  · rintro ⟨⟨tag, node⟩, member, listed, within⟩
    have found := sorted.mem_iff.mp member
    rw [find?_index distinct slashed, TagIndex.entry] at found
    split at found
    · cases found
    · obtain rfl := Option.some.inj found
      exact ⟨tag, (mem_ids_matching distinct own).mp listed, within⟩

/-- **Listings and selections agree** on who carries a tag, in every state that requests can make
from nothing. A tag is found if the caller has a memo that is selected by it, which is if a rename
does not find none, and it is shown with the memos selected. The memos listed with a tag are those
shown with some tag at its path or below it. -/
theorem listings_agree_with_selections {calls : List Call} (reached : memos ∈ states [] calls)
    (accepted : TagPath.validate input = .ok path) :
    let selected := ((Query.ownedBy c.user).withTag (.carries path)).select memos
    (∀ withIds,
      ((∃ node, (Call.outcome ⟨c, .getTag input withIds⟩ memos).1 = .ok (.tag node)) ↔
        selected ≠ []) ∧
      ∀ node, (Call.outcome ⟨c, .getTag input withIds⟩ memos).1 = .ok (.tag node) →
        node.path = path ∧ node.directCount = selected.length ∧
          node.memoIds = if withIds then selected.map (·.id) else []) ∧
    (∀ (c' : Circumstances) new newPath moveChildren, c'.user = c.user →
      TagPath.validate new = .ok newPath →
      ((Call.outcome ⟨c', .renameTag input new moveChildren⟩ memos).1 ≠
        .error (.noMemosWithTag path) ↔ selected ≠ [])) ∧
    ∀ hierarchy, ∃ nodes,
      (Call.outcome ⟨c, .listTags { withIds := true, withHierarchy := hierarchy }⟩ memos).1 =
        .ok (.tags nodes) ∧
      (Call.outcome ⟨c, .listMemos (some input)⟩ memos).1 =
        .ok (.memos ((memos.own c.user).filter fun m => ∃ node ∈ nodes, m.id ∈ node.memoIds ∧
          (node.path = path ∨ path.toList ++ ['/'] <+: node.path.toList))) := by
  intro selected
  have distinct : (ids memos).Nodup := nodup_ids_of_mem_states (by simp [ids]) memos reached
  have slashed : memos.Slashed := slashed_of_mem_states (by simp [Slashed]) memos reached
  have same : selected = memos.matching c.user (.carries path) := select_withTag
  have found := find?_index distinct slashed c.user path
  rw [← same] at found
  refine ⟨fun withIds => ?_, fun c' new newPath moveChildren user accepted' => ?_, fun hierarchy =>
    ⟨_, listTags_outcome _, ?_⟩⟩
  · rw [getTag_outcome accepted, TagIndex.find?_withHierarchy, found, TagIndex.entry]
    by_cases none : selected = []
    · simp [none]
    · simp only [List.map_eq_nil_iff, none, if_false, Option.map_some]
      refine ⟨⟨fun _ => none, fun _ => ⟨_, rfl⟩⟩, fun node answered => ?_⟩
      obtain rfl := Answer.tag.inj (Except.ok.inj answered)
      cases withIds with
      | true => exact ⟨rfl, List.length_map _, rfl⟩
      | false => exact ⟨rfl, List.length_map _, rfl⟩
  · rw [same, ← user, ne_eq, renameTag_finds_none distinct accepted accepted']
  · rw [listMemos_outcome accepted, matching]
    congr 2
    refine List.filter_congr fun m own => ?_
    rw [Bool.eq_iff_iff, decide_eq_true_iff]
    exact carriesWithin_iff distinct slashed own hierarchy

/-- A comment and the memo of another user are not found with the tag, and a tag below it is listed
with it. -/
theorem listings_agree_with_selections_comment :
    let under := fun (user : UserId) (n : Nat) =>
      ({ user, parser := .always fun text => .ok [.leaf (.tag text)], freshId := .ofNat n,
         now := default } : Circumstances)
    let calls : List Call :=
      [⟨under 1 1, .createMemo "a" none⟩, ⟨under 1 2, .createMemo "a/b" none⟩,
        ⟨under 1 3, .createMemo "a" (some (MemoName.ofId (.ofNat 1)))⟩,
        ⟨under 2 4, .createMemo "a" none⟩]
    let memos := calls.foldl (fun memos call => call.after memos) []
    memos ∈ states [] calls ∧ TagPath.validate "a/" = .ok "/a" ∧
      ids memos = [.ofNat 1, .ofNat 2, .ofNat 3, .ofNat 4] ∧
      (((Query.ownedBy 1).withTag (.carries "/a")).select memos).map (·.id) = [.ofNat 1] ∧
      (∃ node, (Call.outcome ⟨under 1 5, .getTag "a/" true⟩ memos).1 = .ok (.tag node) ∧
        node.memoIds = [.ofNat 1]) ∧
      ∃ listed, (Call.outcome ⟨under 1 5, .listMemos (some "a/")⟩ memos).1 = .ok (.memos listed) ∧
        ids listed = [.ofNat 1, .ofNat 2] := by
  intro under calls memos
  have reached : memos ∈ states [] calls := by decide +kernel
  have accepted : TagPath.validate "a/" = .ok "/a" := by decide +kernel
  have selected : (((Query.ownedBy 1).withTag (.carries "/a")).select memos).map (·.id) =
      [.ofNat 1] := by decide +kernel
  obtain ⟨found, -, -⟩ := listings_agree_with_selections (c := under 1 5) reached accepted
  obtain ⟨succeeds, shown⟩ := found true
  obtain ⟨node, answered⟩ := succeeds.mpr fun none => by
    rw [show ((Query.ownedBy 1).withTag (.carries "/a")).select memos = [] from none] at selected
    cases selected
  obtain ⟨-, -, withIds⟩ := shown node answered
  exact ⟨reached, accepted, by decide +kernel, selected, ⟨node, answered, withIds.trans selected⟩,
    matching 1 (.carriesWithin "/a") memos, by decide +kernel, by decide +kernel⟩

end Listings

end TaggedMemos
