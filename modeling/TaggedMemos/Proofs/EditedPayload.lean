import TaggedMemos.Proofs.EditedText

/-!
# The Payload of an Edited Memo

An edit of the tags of one memo stores the payload of the edited forest, and of the old payload it
changes the tags alone. A removal leaves one tag out and keeps the order of the others. Afterwards
the memo is known not to carry the tag, so a second request for the same removal finds nothing to
do; it does not even read the text.

A renaming puts the new path in the place of the old one, and a path that comes twice by that is
kept at its first place only. Where the new path was a tag before, two tags become one, and that
one stands where the first of the two stood: a renaming may move a tag forward, but never back.

## Main results

* `eraseDups_map_renamedPath`: where a renamed tag stands.
* `removal_filters_payload`: what a removal stores, and what a second one does.
* `renaming_maps_payload`: what a renaming makes of a payload.
-/

namespace TaggedMemos

variable {path old new : String} {paths met front rest : List String}

/-! ### Removed tags -/

section Requests

open TaggedMemos.Action Service

variable {c : Circumstances} {p : Progress} {memos : Collection} {id : MemoId} {m : Memo}

/-- The owner of a memo can load it. -/
theorem outcome_loadOwned (current : p.current = .ok memos) (found : memos.find? id = some m)
    (own : m.creator = c.user) : (Store.loadOwned id).outcome c p = (.ok m, p) := by
  simp [Store.loadOwned, Store.find?, outcome_bind, current, found, own]

/-- An edit of a memo that lacks the tag does nothing. -/
theorem outcome_edit_of_lacks {request : Request} {edit : TagEdit}
    (edits : request.Edits id edit) (current : p.current = .ok memos)
    (found : memos.find? id = some m) (own : m.creator = c.user)
    (lacks : m.payload.hasTag edit.path = false) :
    request.perform.outcome c p = (.ok (.retagged ⟨id, false⟩), p) := by
  have loaded := outcome_loadOwned current found own
  cases edits with
  | remove single accepted =>
      rw [TagEdit.path] at lacks
      simp [Request.perform, deleteMemoTag, resolveUnless, retag, outcome_bind, single,
        outcome_requirePath_of_ok accepted, loaded, lacks]
  | rename single accepted accepted' =>
      rw [TagEdit.path] at lacks
      simp [Request.perform, renameMemoTag, resolveUnless, retag, outcome_bind, single,
        outcome_requirePath_of_ok accepted, outcome_requirePath_of_ok accepted', loaded, lacks]

end Requests

/-- A payload without a tag that it lacks is the same payload. -/
theorem Payload.filter_tags_of_lacks {payload : Payload} (lacks : payload.hasTag path = false) :
    { payload with tags := payload.tags.filter (· != path) } = payload := by
  refine Payload.eq_of (List.filter_eq_self.mpr fun tag member => ?_) rfl
  have absent : path ∉ payload.tags := by simpa [hasTag] using lacks
  simpa using ne_of_mem_of_not_mem member absent

/-- After a removal that succeeds, the memo is still its owner's, and its payload is the one before
without the tag. -/
theorem find?_after_removal {call : Call} {memos : Collection} {id : MemoId} {m : Memo}
    {answer : Answer} {parse : String → Except ParseError Forest}
    (follows : call.circumstances.parser.Follows parse)
    (edits : call.request.Edits id (.remove path)) (found : memos.find? id = some m)
    (inSync : m.InSync parse) (succeeded : (call.outcome memos).1 = .ok answer) :
    answer = .retagged ⟨id, m.payload.hasTag path⟩ ∧
      ∃ m', (call.after memos).find? id = some m' ∧ m'.creator = call.circumstances.user ∧
        m'.payload = { m.payload with tags := m.payload.tags.filter (· != path) } := by
  obtain ⟨nodes, read, payload⟩ := fits_iff.mp inSync
  obtain ⟨next, saved, retagging, id', edit, m', rfl, edits', found', own, retags⟩ :=
    (Call.outcome_of_commits (commits_edit edits.editsOneMemo)).2 _ succeeded
  obtain ⟨rfl, rfl⟩ := edits.unique edits'
  obtain rfl : m = m' := Option.some.inj (found.symm.trans found')
  obtain ⟨-, rfl⟩ := Collection.find?_eq_some found
  cases retags with
  | edited carried =>
      rw [TagEdit.path] at carried
      obtain ⟨reads, nodes', text, accepted, -, after⟩ := find?_after_edit edits found succeeded
      obtain rfl : nodes = nodes' :=
        Except.ok.inj (read.symm.trans (follows reads m.content nodes' accepted))
      refine ⟨by rw [carried], _, after, own, ?_⟩
      rw [payload]
      exact Forest.payload_removeTag path nodes
  | spared lacks =>
      rw [TagEdit.path] at lacks
      refine ⟨by rw [lacks], m, ?_, own, (Payload.filter_tags_of_lacks lacks).symm⟩
      rw [Call.after, saved]
      exact found

/-- **What a removal stores.** The payload of a forest after a removal is the one before without the
tag. So a removal that succeeds on a memo in sync leaves out this tag and keeps the others, their
order, and the facts. Whoever sends it again, in whatever circumstances, is answered that nothing
has changed, and nothing is saved. -/
theorem removal_filters_payload (path : String) :
    (∀ nodes : Forest, Forest.payload (Forest.removeTag path nodes).result =
      { nodes.payload with tags := nodes.payload.tags.filter (· != path) }) ∧
    ∀ {call : Call} {memos : Collection} {id : MemoId} {m : Memo} {answer : Answer}
      {parse : String → Except ParseError Forest},
      call.circumstances.parser.Follows parse → call.request.Edits id (.remove path) →
      memos.find? id = some m → m.InSync parse → (call.outcome memos).1 = .ok answer →
      answer = .retagged ⟨id, m.payload.hasTag path⟩ ∧
      (∃ m', (call.after memos).find? id = some m' ∧
        m'.payload = { m.payload with tags := m.payload.tags.filter (· != path) }) ∧
      ∀ again : Call, again.request.Edits id (.remove path) →
        again.circumstances.user = call.circumstances.user →
        (again.outcome (call.after memos)).1 = .ok (.retagged ⟨id, false⟩) ∧
          again.saved (call.after memos) = [] := by
  refine ⟨Forest.payload_removeTag path, ?_⟩
  intro call memos id m answer parse follows edits found inSync succeeded
  obtain ⟨answered, m', found', own, payload⟩ :=
    find?_after_removal follows edits found inSync succeeded
  refine ⟨answered, ⟨m', found', payload⟩, fun again edits' same => ?_⟩
  have lacks : m'.payload.hasTag path = false := by simp [payload, Payload.hasTag]
  have quiet : again.outcome (call.after memos) =
      (.ok (.retagged ⟨id, false⟩), { stored := .ok (call.after memos) }) :=
    outcome_edit_of_lacks edits' rfl found' (own.trans same.symm) lacks
  rw [Call.saved, quiet]
  exact ⟨rfl, rfl⟩

/-- Two spellings of a tag go, also from a task. The second request comes with a medium that refuses
to save, and with a parser that accepts nothing. -/
theorem removal_filters_payload_twice :
    let m := soleMemo "- [ ] #b #a/ [u](v)\n\n#c **#a**" ["/b", "/a", "/c"]
    let m := { m with payload := { m.payload with
      property := { hasLink := true, hasTaskList := true, hasIncompleteTasks := true } } }
    let call := plainCall (.deleteMemoTag "memos/00000000000000000000000000000001" "a")
    let again : Call :=
      ⟨{ call.circumstances with
          parser := .failingAfter 0 .markdown
          saveFault := fun _ => some (.store .simulated) }, call.request⟩
    (∃ m', (call.after [m]).find? (.ofNat 1) = some m' ∧
      m'.payload = { m.payload with tags := ["/b", "/c"] }) ∧
      (again.outcome (call.after [m])).1 = .ok (.retagged ⟨.ofNat 1, false⟩) ∧
      again.saved (call.after [m]) = [] := by
  intro m₀ m call again
  have follows : call.circumstances.parser.Follows Forest.ofMarkdown := Parser.markdown_follows
  have edits : call.request.Edits (.ofNat 1) (.remove "/a") :=
    .remove (by decide +kernel) (by decide +kernel)
  have found : Collection.find? [m] (.ofNat 1) = some m := by decide +kernel
  have inSync : m.InSync Forest.ofMarkdown := by decide +kernel
  have succeeded : (call.outcome [m]).1 = .ok (.retagged ⟨.ofNat 1, true⟩) := by decide +kernel
  obtain ⟨-, after, later⟩ :=
    (removal_filters_payload "/a").2 follows edits found inSync succeeded
  exact ⟨after, later again edits rfl⟩

/-! ### Renamed tags -/

/-- Paths without the old one are the same after a renaming. -/
theorem map_renamedPath_of_not_mem (absent : old ∉ paths) :
    paths.map (renamedPath old new) = paths := by
  refine (List.map_congr_left fun path member => ?_).trans (List.map_id paths)
  rw [renamedPath, if_neg (ne_of_mem_of_not_mem member absent), id]

/-- After a renaming there is the new path, if there was one of the two, and every third one. -/
theorem mem_map_renamedPath :
    path ∈ paths.map (renamedPath old new) ↔
      (path = new ∧ (old ∈ paths ∨ new ∈ paths)) ∨ (path ≠ old ∧ path ∈ paths) := by
  rw [List.mem_map]
  constructor
  · rintro ⟨tag, carried, rfl⟩
    rw [renamedPath]
    split
    · next on => exact .inl ⟨rfl, .inl (on ▸ carried)⟩
    · next other => exact .inr ⟨other, carried⟩
  · rintro (⟨rfl, carried | carried⟩ | ⟨other, carried⟩)
    · exact ⟨old, carried, if_pos rfl⟩
    · exact ⟨path, carried, ite_self path⟩
    · exact ⟨path, carried, if_neg other⟩

/-- Behind a renamed tag, what has become the same tag is left out. -/
theorem filter_map_renamedPath (paths : List String) :
    (paths.map (renamedPath old new)).filter (fun path => !path == new) =
      paths.filter (fun path => path ≠ old ∧ path ≠ new) := by
  induction paths with
  | nil => rfl
  | cons path paths ih =>
      by_cases on : path = old
      · simpa [renamedPath, on] using ih
      · by_cases same : path = new
        · simpa [renamedPath, on, same] using ih
        · simpa [renamedPath, on, same] using ih

/-- **Where a renamed tag stands.** Of the old and the new path, the first one that is among the
tags makes place for the new path, and the other one goes. -/
theorem eraseDups_map_renamedPath (once : (front ++ path :: rest).Nodup)
    (either : path = old ∨ path = new) (old_later : old ∉ front) (new_later : new ∉ front) :
    ((front ++ path :: rest).map (renamedPath old new)).eraseDups =
      front ++ new :: rest.filter (fun path => path ≠ old ∧ path ≠ new) := by
  have becomes : renamedPath old new path = new := by
    rcases either with rfl | rfl <;> simp [renamedPath]
  obtain ⟨once_front, once_rest, apart⟩ := List.nodup_append.mp once
  have behind : ∀ path ∈ new :: rest.map (renamedPath old new), path ∉ front := by
    intro path member
    rcases List.mem_cons.mp member with rfl | member
    · exact new_later
    · obtain ⟨other, behind, rfl⟩ := List.mem_map.mp member
      rw [renamedPath]
      split
      · exact new_later
      · exact fun first => apart other first other (List.mem_cons_of_mem _ behind) rfl
  have kept : (new :: rest.map (renamedPath old new)).removeAll front =
      new :: rest.map (renamedPath old new) := by
    rw [List.removeAll, List.filter_eq_self]
    intro path member
    simpa using behind path member
  have once_others : (rest.filter (fun path => path ≠ old ∧ path ≠ new)).Nodup :=
    (List.nodup_cons.mp once_rest).2.filter _
  rw [List.map_append, List.map_cons, map_renamedPath_of_not_mem old_later, becomes,
    List.eraseDups_append, eraseDups_eq_self once_front, kept, List.eraseDups_cons,
    filter_map_renamedPath, eraseDups_eq_self once_others]

/-- **What a renaming makes of a payload.** The facts stay, and of the tags the old one is replaced
by the new one and every path is kept at its first place. So the new path stands where the first of
the two stood, and the old one is gone unless it is the new one. -/
theorem renaming_maps_payload {typed : String} (accepted : TagPath.validate typed = .ok new)
    (old : String) (nodes : Forest) :
    ∃ tags, Forest.payload (Forest.renameTag old new nodes).result =
        { nodes.payload with tags } ∧
      tags = (nodes.payload.tags.map (renamedPath old new)).eraseDups ∧
      (∀ front path rest, nodes.payload.tags = front ++ path :: rest → path = old ∨ path = new →
        old ∉ front → new ∉ front →
        tags = front ++ new :: rest.filter (fun path => path ≠ old ∧ path ≠ new)) ∧
      (old ≠ new → old ∉ tags) ∧
      (new ∈ tags ↔ old ∈ nodes.payload.tags ∨ new ∈ nodes.payload.tags) := by
  have canonical := (TagPath.isCanonical_of_validate accepted).1.normalize_withoutSlash
  have mapped := @Forest.payload_renameTag old new canonical nodes
  rw [firsts_eq_eraseDups] at mapped
  refine ⟨_, mapped, rfl, ?_, ?_, ?_⟩
  · rintro front path rest split either old_later new_later
    have once := nodes.nodup_tags_payload
    rw [split] at once ⊢
    exact eraseDups_map_renamedPath once either old_later new_later
  · intro other
    simp [mem_map_renamedPath, other]
  · rw [List.mem_eraseDups, mem_map_renamedPath, and_iff_right rfl]
    exact or_iff_left_of_imp fun carried => .inr carried.2

/-- A tag gets the path of one further behind, and that one goes. -/
theorem renaming_maps_payload_merged :
    let nodes : Forest := [.leaf (.tag "c"), .container (.taskItem false) [.leaf (.tag "a/")],
      .leaf (.tag "d"), .container .bold [.leaf (.tag "/b"), .leaf (.embed "r")]]
    TagPath.validate "b/" = .ok "/b" ∧ nodes.payload.tags = ["/c", "/a", "/d", "/b"] ∧
      Forest.payload (Forest.renameTag "/a" "/b" nodes).result =
        { nodes.payload with tags := ["/c", "/b", "/d"] } := by
  intro nodes
  have accepted : TagPath.validate "b/" = .ok "/b" := by decide +kernel
  have before : nodes.payload.tags = ["/c"] ++ "/a" :: ["/d", "/b"] := by decide +kernel
  obtain ⟨tags, mapped, -, placed, -⟩ := renaming_maps_payload accepted "/a" nodes
  have after := placed ["/c"] "/a" ["/d", "/b"] before (.inl rfl) (by decide) (by decide)
  refine ⟨accepted, before, mapped.trans ?_⟩
  rw [after]
  decide +kernel

end TaggedMemos
