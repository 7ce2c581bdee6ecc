import Mathlib.Data.List.Nodup
import TaggedMemos.Proofs.Collection
import TaggedMemos.Proofs.History

/-!
# Revisions

There are only a few ways in which a request changes the collection stored, and each save makes one
such revision. Which way it is depends on the request alone. Which memo it is about was found out in
the store that the call began with: memos are loaded or listed before the first save, and a rebuild,
which lists memos between its saves, changes no text.

So a revision is described with that store at hand, and no assumption is made on it. What a later
save relies on, say that a memo still has its owner, has to be carried over from there.

## Main results

* `Revision`: what one save of a call can do.
* `saves_revision`: every request saves by revisions only.
* `Call.linked_revision`: so does every call, on any store.
-/

namespace TaggedMemos

open Collection

/-! ### Kinds of requests -/

/-- Whether a request makes a new memo. -/
def Request.creates : Request → Bool
  | .createMemo .. => true
  | _ => false

/-- Whether a request may give memos another text that is read before it is stored. -/
def Request.rewrites : Request → Bool
  | .updateMemo .. | .renameTag .. | .deleteTag _ .removeFromContent => true
  | _ => false

/-- Whether a request edits the tags of a single memo, whose text nobody reads afterwards. -/
def Request.editsOneMemo : Request → Bool
  | .renameMemoTag .. | .deleteMemoTag .. => true
  | _ => false

/-- Whether a request may remove memos. -/
def Request.removes : Request → Bool
  | .deleteMemo _ => true
  | .deleteTag _ .deleteMemos => true
  | .batchDelete _ _ dryRun => !dryRun
  | _ => false

/-- A request that may remove memos makes none. -/
theorem Request.creates_of_removes {request : Request} (removes : request.removes = true) :
    request.creates = false := by
  cases request <;> first | rfl | cases removes

/-- A request that may rewrite memos makes none. -/
theorem Request.creates_of_rewrites {request : Request} (rewrites : request.rewrites = true) :
    request.creates = false := by
  cases request <;> first | rfl | cases rewrites

/-- A request that edits one memo makes none. -/
theorem Request.creates_of_editsOneMemo {request : Request}
    (edits : request.editsOneMemo = true) : request.creates = false := by
  cases request <;> first | rfl | cases edits

/-- A payload comes from a text by a reading that the parser can give. -/
def Circumstances.Reads (c : Circumstances) (text : String) (payload : Payload) : Prop :=
  ∃ reads nodes, c.parser reads text = .ok nodes ∧ payload = nodes.payload

/-- What one save of a call can do to the collection stored, when the call began with `start`. -/
inductive Revision (call : Call) (start : Collection) : Collection → Collection → Prop
  /-- A memo of the caller is added at the end of what the call began with, with the payload read
  from its text. If it is a comment, it is one on a memo of the caller. -/
  | add {m : Memo} (creates : call.request.creates = true)
      (named : m.id = call.circumstances.freshId) (own : m.creator = call.circumstances.user)
      (fresh : start.hasId m.id = false)
      (below : ∀ id, m.parent = some id →
        ∃ parent ∈ start, parent.id = id ∧ parent.creator = call.circumstances.user)
      (read : call.circumstances.Reads m.content m.payload) :
      Revision call start start (start ++ [m])
  /-- A memo of the caller gets another text with the payload read from it. -/
  | rewrite {memos : Collection} {m : Memo} {text : String} {payload : Payload} {tries : Nat}
      (rewrites : call.request.rewrites = true) (known : m ∈ start)
      (own : m.creator = call.circumstances.user) (read : call.circumstances.Reads text payload) :
      Revision call start memos (memos.modify m.id
        (Change.apply { content := some text, payload := some payload }
          (call.circumstances.now tries)))
  /-- A memo of the caller gets the text written from a forest, with the payload of the forest. -/
  | retag {memos : Collection} {m : Memo} {text : String} {nodes : Forest} {tries : Nat}
      (edits : call.request.editsOneMemo = true) (known : m ∈ start)
      (own : m.creator = call.circumstances.user) :
      Revision call start memos (memos.modify m.id
        (Change.apply { content := some text, payload := some nodes.payload }
          (call.circumstances.now tries)))
  /-- A memo of anybody gets the payload read from the text that it had when the call began. -/
  | refresh {memos : Collection} {id : MemoId} {text : String} {payload : Payload} {tries : Nat}
      (rebuilds : call.request = .rebuildPayloads) (known : (id, text) ∈ start.texts)
      (read : call.circumstances.Reads text payload) :
      Revision call start memos
        (memos.modify id
          (Change.apply { payload := some payload } (call.circumstances.now tries)))
  /-- A memo of the caller is removed together with the comments on it. -/
  | remove {memos : Collection} {m : Memo} (removes : call.request.removes = true)
      (known : m ∈ start) (own : m.creator = call.circumstances.user)
      (stored : memos.hasId m.id = true) : Revision call start memos (memos.without m.id)

/-! ### Every request saves by revisions only -/

section Requests

open TaggedMemos.Action Service

variable {c : Circumstances} {request : Request} {start : Collection} {P : Collection → Prop}

/-! What a request finds out before its first save. -/

/-- A memo that could be loaded is one of the caller's. -/
theorem saves_loadOwned {R : Collection → Collection → Prop} (id : MemoId) :
    Saves c R (fun s => s = start) (Store.loadOwned id)
      (fun m s => m ∈ start ∧ m.id = id ∧ m.creator = c.user ∧ s = start) := by
  refine (Saves.loadOwned id).imp_after ?_
  rintro m s ⟨found, own, rfl⟩
  obtain ⟨member, named⟩ := find?_eq_some found
  exact ⟨member, named, own, rfl⟩

/-- The memo that a new comment is on belongs to the caller. -/
theorem saves_resolveParent {R : Collection → Collection → Prop} (parent : Option String) :
    Saves c R (fun s => s = start) (resolveParent parent)
      (fun id s => (∀ id', id = some id' → ∃ m ∈ start, m.id = id' ∧ m.creator = c.user) ∧
        s = start) := by
  cases parent with
  | none => exact .pure fun s same => ⟨by simp, same⟩
  | some name =>
      refine Saves.after_quiet (.resolveSingle name) fun id => ?_
      refine (saves_loadOwned id).bind fun m => .pure ?_
      rintro s ⟨member, -, own, same⟩
      refine ⟨fun id' named => ?_, same⟩
      exact ⟨m, member, Option.some.inj named, own⟩

/-- The memos that a sweep selects belong to the caller. -/
theorem saves_ownedWith {R : Collection → Collection → Prop} (filter : TagFilter) :
    Saves c R (fun s => s = start) (Store.ownedWith filter)
      (fun memos _ => ∀ m ∈ memos, m ∈ start ∧ m.creator = c.user) := by
  refine (Saves.ownedWith filter).imp_after ?_
  rintro _ s ⟨rfl, rfl⟩ m selected
  obtain ⟨member, admitted⟩ := Query.mem_and_admits_of_mem_select selected
  simp only [Query.admits, Query.ownedBy, Query.withTag, Option.all_some, Bool.and_eq_true,
    beq_iff_eq] at admitted
  exact ⟨member, admitted.1.1.2.symm⟩

/-! What it does to one memo. -/

/-- A new text for a memo of the caller is a revision. -/
theorem revises_replaceContent {m : Memo} {text : String} (rewrites : request.rewrites = true)
    (known : m ∈ start) (own : m.creator = c.user) :
    Saves c (Revision ⟨c, request⟩ start) P (Store.replaceContent m.id text)
      (fun _ _ => True) := by
  refine (Saves.payloadOf text).bind fun payload => Saves.given fun _ ⟨read, _⟩ => ?_
  exact (Saves.update fun _ _ _ _ => .rewrite rewrites known own read).imp_after
    fun _ _ _ => trivial

/-- A removal of a memo of the caller is a revision. -/
theorem revises_delete {m : Memo} (removes : request.removes = true) (known : m ∈ start)
    (own : m.creator = c.user) :
    Saves c (Revision ⟨c, request⟩ start) P (Store.delete m.id) (fun _ _ => True) :=
  (Saves.delete fun _ _ stored => .remove removes known own stored).imp_after
    fun _ _ _ => trivial

/-- A sweep saves what the treatment of each memo does. -/
theorem saves_sweep {R : Collection → Collection → Prop} {treat : Memo → Action Unit}
    (failed : MemoId → Nat → Fault → Occurrence) (memos : List Memo)
    (each : ∀ m ∈ memos, Saves c R (fun _ => True) (treat m) (fun _ _ => True)) :
    Saves c R P (sweep failed treat memos) (fun _ _ => True) := by
  refine Saves.bind (Q := fun _ _ => True) ?_ fun _ => .pure fun _ _ => trivial
  refine ((Saves.sweepFrom (P := fun rest _ => rest ⊆ memos) failed (fun m rest => ?_) 0
    memos).imp_before fun _ _ => List.Subset.refl _).imp_after fun _ _ _ => trivial
  refine Saves.given fun _ among => ?_
  refine ((each m (among (by simp))).imp_before fun _ _ => trivial).imp_after fun _ _ _ => ?_
  exact fun m' member => among (List.mem_cons_of_mem _ member)

/-! What each request does. -/

/-- A new memo is what is at the end afterwards. -/
theorem revises_createMemo (creates : request.creates = true) (content : String)
    (parent : Option String) :
    Saves c (Revision ⟨c, request⟩ start) (fun s => s = start) (createMemo content parent)
      (fun m s => s = start ++ [m]) := by
  refine Saves.after_quiet (.checkLength content) fun _ => ?_
  refine (saves_resolveParent parent).bind fun parent => ?_
  refine (Saves.payloadOf content).bind fun payload => Saves.given fun _ ⟨read, below, _⟩ => ?_
  refine Saves.read.bind fun c' => Saves.given fun _ ⟨same, _⟩ => ?_
  subst same
  refine Saves.clock.bind fun now => ?_
  refine (Saves.create ?_).bind fun m => ?_
  · rintro s ⟨-, -, -, -, rfl⟩ fresh
    exact .add creates rfl rfl fresh below read
  · refine Saves.after_quiet (.note _) fun _ => .pure ?_
    rintro s ⟨rfl, _, ⟨-, -, -, -, rfl⟩, -, rfl⟩
    rfl

/-- An update of a memo makes revisions only. -/
theorem revises_updateMemo (rewrites : request.rewrites = true) (name content : String) :
    Saves c (Revision ⟨c, request⟩ start) (fun s => s = start) (updateMemo name content)
      (fun _ _ => True) := by
  refine Saves.after_quiet (.checkLength content) fun _ => ?_
  refine Saves.after_quiet (.resolveSingle name) fun id => ?_
  refine (saves_loadOwned id).bind fun m => Saves.given fun _ ⟨member, _, own, _⟩ => ?_
  refine (revises_replaceContent rewrites member own).bind fun _ => ?_
  refine Saves.after_quiet (.note _) fun _ => ?_
  refine Saves.after_quiet (.find? id) fun found => ?_
  cases found with
  | none => exact .throw _
  | some m => exact .pure fun _ _ => trivial

/-- A deletion of a memo makes revisions only. -/
theorem revises_deleteMemo (removes : request.removes = true) (name : String) :
    Saves c (Revision ⟨c, request⟩ start) (fun s => s = start) (deleteMemo name)
      (fun _ _ => True) := by
  refine Saves.after_quiet (.resolveSingle name) fun id => ?_
  refine (saves_loadOwned id).bind fun m => Saves.given fun _ ⟨member, named, own, _⟩ => ?_
  subst named
  refine (revises_delete removes member own).bind fun _ => ?_
  exact Saves.after_quiet (.note _) fun _ => .pure fun _ _ => trivial

/-- The edit of one memo. -/
theorem revises_retag (edits : request.editsOneMemo = true) (id : MemoId) (path : String)
    (edit : Forest → Edited (List Node)) (edited : Nat → Occurrence) :
    Saves c (Revision ⟨c, request⟩ start) (fun s => s = start) (retag id path edit edited)
      (fun _ _ => True) := by
  refine (saves_loadOwned id).bind fun m => Saves.given fun _ ⟨member, _, own, _⟩ => ?_
  by_cases carried : m.payload.hasTag path = true
  · simp only [carried, if_true]
    refine Saves.after_quiet (.parse m.content) fun nodes => ?_
    refine (Saves.write _).bind fun text => ?_
    refine (Saves.update fun _ _ _ _ => .retag edits member own).bind fun _ => ?_
    exact Saves.after_quiet (.note _) fun _ => .pure fun _ _ => trivial
  · simp only [carried]
    exact .pure fun _ _ => trivial

/-- A renaming of a tag in all memos makes revisions only. -/
theorem revises_renameTag (rewrites : request.rewrites = true) (old new : String)
    (moveChildren : Bool) :
    Saves c (Revision ⟨c, request⟩ start) (fun s => s = start)
      (renameTag old new moveChildren) (fun _ _ => True) := by
  refine Saves.after_quiet (.requirePath _ _) fun old => ?_
  refine Saves.after_quiet (.requirePath _ _) fun new => ?_
  refine (saves_ownedWith _).bind fun memos => Saves.given fun _ listed => ?_
  refine Saves.ite_throw fun _ => (saves_sweep _ memos fun m member => ?_).bind fun ids => ?_
  · exact revises_replaceContent rewrites (listed m member).1 (listed m member).2
  · exact Saves.after_quiet (.note _) fun _ => .pure fun _ _ => trivial

/-- A deletion of a tag makes revisions only, of the kind that its strategy asks for. -/
theorem revises_deleteTag (input : String) (strategy : DeleteStrategy)
    (rewrites : strategy = .removeFromContent → request.rewrites = true)
    (removes : strategy = .deleteMemos → request.removes = true) :
    Saves c (Revision ⟨c, request⟩ start) (fun s => s = start) (deleteTag input strategy)
      (fun _ _ => True) := by
  refine Saves.after_quiet (.requirePath _ _) fun path => Saves.ite_throw fun chosen => ?_
  refine (saves_ownedWith _).bind fun memos => Saves.given fun _ listed => ?_
  refine (saves_sweep _ memos fun m member => ?_).bind fun ids => ?_
  · obtain ⟨known, own⟩ := listed m member
    cases strategy with
    | deleteMemos => exact revises_delete (removes rfl) known own
    | removeFromContent => exact revises_replaceContent (rewrites rfl) known own
    | unspecified => exact absurd rfl chosen
  · exact Saves.after_quiet (.note _) fun _ => .pure fun _ _ => trivial

/-- A deletion of the memos below a path makes revisions only, and none if it is a dry run. -/
theorem revises_batchDelete (input : String) (children dryRun : Bool)
    (removes : dryRun = false → request.removes = true) :
    Saves c (Revision ⟨c, request⟩ start) (fun s => s = start)
      (batchDelete input children dryRun) (fun _ _ => True) := by
  rw [batchDelete]
  refine Saves.ite_throw fun _ => Saves.after_quiet (.requirePath _ _) fun path => ?_
  refine (saves_ownedWith _).bind fun memos => Saves.given fun _ listed => ?_
  refine (saves_sweep _ memos fun m member => ?_).bind fun ids => ?_
  · cases dryRun with
    | true => exact .pure fun _ _ => trivial
    | false => exact revises_delete (removes rfl) (listed m member).1 (listed m member).2
  · exact Saves.after_quiet (.note _) fun _ => .pure fun _ _ => trivial

/-- A rebuild lists memos between its saves. It finds the texts that the call began with. -/
theorem revises_rebuildPayloads (rebuilds : request = .rebuildPayloads) :
    Saves c (Revision ⟨c, request⟩ start) (fun s => s = start) rebuildPayloads
      (fun _ _ => True) := by
  refine Saves.after_quiet .read fun _ => Saves.after_quiet .load fun _ => ?_
  refine Saves.bind (Q := fun _ _ => True) ?_ fun _ =>
    Saves.after_quiet (.note _) fun _ => .pure fun _ _ => trivial
  -- That no text changes is kept next to the revisions, so that it holds of every page listed.
  have pages := Saves.rebuildFrom (c := c) (P := fun s => s.texts = start.texts)
    (R := fun s s' => Revision ⟨c, request⟩ start s s' ∧ s'.texts = s.texts)
    (fun _ _ unchanged related => related.2.trans unchanged) ?_
  · refine (((pages _ _ _ _).mono fun _ _ related => related.1).imp_before ?_).imp_after
      fun _ _ _ => trivial
    rintro _ rfl
    rfl
  · intro s unchanged m member
    have known : (m.id, m.content) ∈ start.texts := unchanged ▸ List.mem_map_of_mem member
    refine (Saves.payloadOf m.content).bind fun payload => Saves.given fun _ ⟨read, _⟩ => ?_
    refine ((Saves.update ?_).imp_before fun _ h => h.2).imp_after ?_
    · exact fun _ _ _ _ => ⟨.refresh rebuilds known read, texts_modify _ _⟩
    · rintro _ _ ⟨s, _, unchanged, -, rfl⟩
      exact (texts_modify _ _).trans unchanged

end Requests

/-- **Every request saves by revisions only**, whatever the store holds. -/
theorem saves_revision (c : Circumstances) (request : Request) (start : Collection) :
    Action.Saves c (Revision ⟨c, request⟩ start) (fun s => s = start) request.perform
      (fun _ _ => True) := by
  have finish : ∀ {α : Type} {x : Action α} {f : α → Answer},
      Action.Saves c (Revision ⟨c, request⟩ start) (fun s => s = start) x (fun _ _ => True) →
      Action.Saves c (Revision ⟨c, request⟩ start) (fun s => s = start)
        (x >>= fun a => pure (f a)) (fun _ _ => True) :=
    fun saves => saves.bind fun _ => .pure fun _ _ => trivial
  have quiet : ∀ {α : Type} {x : Action α} {f : α → Answer}, Action.Quiet c x →
      Action.Saves c (Revision ⟨c, request⟩ start) (fun s => s = start)
        (x >>= fun a => pure (f a)) (fun _ _ => True) :=
    fun quiet => Action.Saves.after_quiet quiet fun _ => .pure fun _ _ => trivial
  cases request with
  | createMemo content parent =>
      exact finish ((revises_createMemo rfl content parent).imp_after fun _ _ _ => trivial)
  | updateMemo name content => exact finish (revises_updateMemo rfl name content)
  | deleteMemo name => exact finish (revises_deleteMemo rfl name)
  | renameTag old new moveChildren => exact finish (revises_renameTag rfl old new moveChildren)
  | deleteTag path strategy =>
      exact finish (revises_deleteTag path strategy (fun same => same ▸ rfl)
        fun same => same ▸ rfl)
  | batchDelete path children dryRun =>
      exact finish (revises_batchDelete path children dryRun fun same => same ▸ rfl)
  | renameMemoTag name old new =>
      refine finish (Action.Saves.after_quiet (.resolveUnless _ _) fun id => ?_)
      refine Action.Saves.after_quiet (.requirePath _ _) fun old => ?_
      exact Action.Saves.after_quiet (.requirePath _ _) fun new => revises_retag rfl _ _ _ _
  | deleteMemoTag name path =>
      refine finish (Action.Saves.after_quiet (.resolveUnless _ _) fun id => ?_)
      exact Action.Saves.after_quiet (.requirePath _ _) fun path => revises_retag rfl _ _ _ _
  | rebuildPayloads => exact finish (revises_rebuildPayloads rfl)
  | getMemo name => exact quiet (.getMemo name)
  | listMemos tag => exact quiet (.listMemos tag)
  | listTags query => exact quiet (.listTags query)
  | getTag path withIds => exact quiet (.getTag path withIds)

/-- What holds of revisions in a row holds of the saves of a request. -/
theorem saves_of_revisions {c : Circumstances} {request : Request}
    {R : Collection → Collection → Prop} {P : Collection → Prop}
    (linked : ∀ s, P s → ∀ trail, Linked (Revision ⟨c, request⟩ s) s trail → Linked R s trail) :
    Action.Saves c R P request.perform (fun _ _ => True) := by
  intro p memos current holds
  obtain ⟨trail, saved, stored, revisions, value⟩ :=
    saves_revision c request memos p memos current rfl
  exact ⟨trail, saved, stored, linked memos holds trail revisions, value⟩

/-- The saves of a call are revisions of the collection that it began with. -/
theorem Call.linked_revision (call : Call) (memos : Collection) :
    Linked (Revision call memos) memos (call.saved memos) :=
  Call.linked_saved (saves_revision call.circumstances call.request memos) rfl

/-- What the medium holds after a call. -/
theorem Call.current_outcome (call : Call) (memos : Collection) :
    (call.outcome memos).2.current = .ok (call.after memos) := by
  obtain ⟨_, _, stored, _⟩ :=
    saves_revision call.circumstances call.request memos { stored := .ok memos } memos rfl rfl
  exact Action.current_of_saved (p := { stored := .ok memos }) rfl stored (List.append_nil _).symm

end TaggedMemos
