import TaggedMemos.Proofs.Retag

/-!
# Requests about One Memo

A request about one memo saves last. Before that it looks at its arguments and at the store, and
reads or writes a text; whatever is wrong is found out there. After the save it leaves a record,
and a new text is loaded once more, which cannot fail any more. So such a request saves once at
most, and not at all if it fails.

`Action.Saves` cannot say this: it follows the collection through the saves of an action and says
nothing about how many of them there are before a fault. `Action.Commits` says it of an action, and
needs no relation between saves, since there is only one of them.

## Main results

* `Commits.bind`, `Commits.followed`: what may come before the save, and what after it.
* `commits_createMemo`, `commits_updateMemo`, `commits_deleteMemo`, `commits_retag`: what each
  request about one memo saves.
* `single_memo_all_or_nothing`: a request about one memo changes nothing, or its memo alone.
-/

namespace TaggedMemos

open Collection

/-! ### One save at most -/

namespace Action

variable {α β : Type} {c : Circumstances} {memos : Collection}

/-- Begun where `memos` is stored and no save was tried, an action saves nothing if it fails. If it
succeeds, it has saved once at most, no save was refused, and `Q` holds of its value and of what it
has saved. -/
def Commits (c : Circumstances) (memos : Collection) (x : Action α)
    (Q : α → Option Collection → Prop) : Prop :=
  ∀ p, p.current = .ok memos → p.tries = 0 →
    match x.outcome c p with
    | (.error _, q) => q.saved = p.saved
    | (.ok a, q) =>
      ∃ next, q.saved = next.toList ++ p.saved ∧ q.stored = p.stored ∧ q.refused = p.refused ∧
        Q a next

/-- Begun where `memos` is stored, an action saves nothing, and `V` holds of its value if it
succeeds. -/
def Finds (c : Circumstances) (memos : Collection) (x : Action α) (V : α → Prop) : Prop :=
  Commits c memos x fun a next => V a ∧ next = none

namespace Finds

variable {V : α → Prop}

/-- What is known of the value of an action that saves nothing. -/
theorem of_saves {x : Action α} (quiet : Quiet c x)
    (saves : Saves c (fun _ _ => True) (fun s => s = memos) x fun a _ => V a) :
    Finds c memos x V := by
  intro p current _
  obtain ⟨saved, stored, refused⟩ := quiet p
  obtain ⟨trail, -, -, -, value⟩ := saves p memos current rfl
  rcases h : x.outcome c p with ⟨fault | a, q⟩ <;> rw [h] at saved stored refused value
  · exact saved
  · exact ⟨none, saved, stored, refused, value a rfl, rfl⟩

/-- The circumstances that are found are those of the call. -/
theorem read : Finds c memos read fun c' => c' = c :=
  of_saves .read (Saves.read.imp_after fun _ _ h => h.1)

/-- The clock shows the time of the first save. -/
theorem clock : Finds c memos clock fun now => now = c.now 0 := by
  intro p _ untried
  rw [outcome_clock, untried]
  exact ⟨none, rfl, rfl, rfl, rfl, rfl⟩

/-- A memo that is loaded for the caller is the one stored, and belongs to the caller. -/
theorem loadOwned (id : MemoId) :
    Finds c memos (Store.loadOwned id) fun m => memos.find? id = some m ∧ m.creator = c.user := by
  refine of_saves (.loadOwned id) ((Saves.loadOwned id).imp_after ?_)
  rintro m s ⟨found, own, rfl⟩
  exact ⟨found, own⟩

/-- What is found by parsing is what the parser gives, however often it was called before. -/
theorem parse (content : String) :
    Finds c memos (parse content) fun nodes => ∃ reads, c.parser reads content = .ok nodes :=
  of_saves (.parse content) ((Saves.parse content).imp_after fun _ _ h => h.1)

/-- The payload found is one that the parser reads in the text. -/
theorem payloadOf (content : String) : Finds c memos (payloadOf content) (c.Reads content) :=
  of_saves (.payloadOf content) ((Saves.payloadOf content).imp_after fun _ _ h => h.1)

/-- The text found is what the writer makes of the forest. -/
theorem write (nodes : Forest) :
    Finds c memos (write nodes) fun content => c.writer nodes = some content := by
  have quiet : Quiet c (Action.write nodes) := by
    refine .bind .read fun c' => ?_
    cases c'.writer nodes with
    | none => exact .throw _
    | some content => exact .pure _
  exact of_saves quiet ((Saves.write nodes).imp_after fun _ _ h => h.1)

/-- The path found is what validation makes of the input. -/
theorem requirePath (input field : String) :
    Finds c memos (requirePath input field) fun path => TagPath.validate input = .ok path :=
  of_saves (.requirePath input field)
    ((Saves.requirePath input field).imp_after fun _ _ h => h.1)

end Finds

namespace Commits

variable {V : α → Prop} {P : α → Option Collection → Prop} {Q : β → Option Collection → Prop}

/-- A value without more to do saves nothing. -/
theorem pure {a : α} (value : P a none) : Commits c memos (pure a) P :=
  fun _ _ _ => ⟨none, rfl, rfl, rfl, value⟩

/-- A fault saves nothing. -/
theorem throw (fault : Fault) : Commits c memos (throw fault : Action α) P :=
  fun _ _ _ => rfl

/-- Less may be needed than is known. -/
theorem imp {P' : α → Option Collection → Prop} {x : Action α} (commits : Commits c memos x P)
    (weaker : ∀ a next, P a next → P' a next) : Commits c memos x P' := by
  intro p current untried
  have before := commits p current untried
  rcases h : x.outcome c p with ⟨fault | a, q⟩ <;> rw [h] at before
  · exact before
  · obtain ⟨next, saved, stored, refused, value⟩ := before
    exact ⟨next, saved, stored, refused, weaker a next value⟩

/-- Anything may come before that saves nothing. -/
theorem bind {x : Action α} {f : α → Action β} (first : Finds c memos x V)
    (second : ∀ a, V a → Commits c memos (f a) Q) : Commits c memos (x >>= f) Q := by
  intro p current untried
  have before := first p current untried
  rw [outcome_bind]
  rcases h : x.outcome c p with ⟨fault | a, q⟩ <;> rw [h] at before
  · exact before
  · obtain ⟨_, saved, stored, refused, value, rfl⟩ := before
    have same : q.saved = [] ++ p.saved := saved
    have untried' : q.tries = 0 := by
      rw [Progress.tries, same, refused]
      exact untried
    have after := second a value q (current_of_saved current stored same) untried'
    simp only
    rcases h' : (f a).outcome c q with ⟨fault | b, r⟩ <;> rw [h'] at after
    · exact after.trans saved
    · obtain ⟨next, saved', stored', refused', value'⟩ := after
      exact ⟨next, by rw [saved', saved]; rfl, stored'.trans stored, refused'.trans refused, value'⟩

/-- Anything may come after that saves nothing and cannot fail there. -/
theorem followed {x : Action α} {f : α → Action β} (first : Commits c memos x P)
    (quiet : ∀ a, Quiet c (f a))
    (total : ∀ a next q, P a next → q.current = .ok (next.getD memos) →
      ∃ b, ((f a).outcome c q).1 = .ok b ∧ Q b next) : Commits c memos (x >>= f) Q := by
  intro p current untried
  have before := first p current untried
  rw [outcome_bind]
  rcases h : x.outcome c p with ⟨fault | a, q⟩ <;> rw [h] at before
  · exact before
  · obtain ⟨next, saved, stored, refused, value⟩ := before
    have current' : q.current = .ok (next.getD memos) := by
      have := current_of_saved current stored saved
      cases next <;> exact this
    obtain ⟨b, succeeds, value'⟩ := total a next q value current'
    obtain ⟨saved', stored', refused'⟩ := quiet a q
    simp only
    rcases h' : (f a).outcome c q with ⟨fault | b', r⟩ <;>
      rw [h'] at succeeds saved' stored' refused'
    · cases succeeds
    · obtain rfl := Except.ok.inj succeeds
      exact ⟨next, saved'.trans saved, stored'.trans stored, refused'.trans refused, value'⟩

/-- A record may be left and another value given. -/
theorem noted {x : Action α} {f : α → β} {record : α → Occurrence} (first : Commits c memos x P)
    (value : ∀ a next, P a next → Q (f a) next) :
    Commits c memos (x >>= fun a => note (record a) >>= fun _ => Pure.pure (f a)) Q :=
  first.followed (fun _ => .bind (.note _) fun _ => .pure _) fun a next _ holds _ =>
    ⟨f a, rfl, value a next holds⟩

/-- Another value may be given. -/
theorem map {x : Action α} {f : α → β} (first : Commits c memos x P)
    (value : ∀ a next, P a next → Q (f a) next) :
    Commits c memos (x >>= fun a => Pure.pure (f a)) Q :=
  first.followed (fun _ => .pure _) fun a next _ holds _ => ⟨f a, rfl, value a next holds⟩

/-! The three ways of saving. -/

/-- A save is the one that is made, if it succeeds. -/
theorem save (memos' : Collection) :
    Commits c memos (save memos') fun _ next => next = some memos' := by
  intro p _ _
  rw [outcome_save]
  cases c.saveFault (p.saved.length + p.refused) with
  | some fault => rfl
  | none => exact ⟨some memos', rfl, rfl, rfl, rfl⟩

/-- What follows a look at the collection. -/
theorem load {f : Collection → Action β} (second : Commits c memos (f memos) Q) :
    Commits c memos (Action.load >>= f) Q := by
  intro p current untried
  rw [outcome_bind, outcome_load, current]
  exact second p current untried

/-- A memo is put at the end, and its identifier was not in use. -/
theorem create (m : Memo) :
    Commits c memos (Store.create m) fun m' next =>
      memos.hasId m.id = false ∧ m' = m ∧ next = some (memos ++ [m]) := by
  refine load ?_
  cases taken : memos.hasId m.id with
  | true =>
      simp only [Collection.add?, taken, if_true]
      exact throw _
  | false =>
      simp only [Collection.add?, taken, Bool.false_eq_true, if_false]
      exact (save _).map fun _ next saved => ⟨trivial, rfl, saved⟩

/-- A change of one memo is saved once, with the time of the first save. -/
theorem update (id : MemoId) (change : Change) :
    Commits c memos (Store.update id change) fun _ next =>
      next = some (memos.modify id (change.apply (c.now 0))) := by
  refine load ?_
  cases known : memos.hasId id with
  | true =>
      simp only [if_true]
      refine bind .clock fun now same => ?_
      rw [same]
      exact save _
  | false =>
      simp only [Bool.false_eq_true, if_false]
      exact throw _

/-- A removal of one memo is saved once. -/
theorem delete (id : MemoId) :
    Commits c memos (Store.delete id) fun _ next => next = some (memos.without id) := by
  refine load ?_
  cases known : memos.hasId id with
  | true => simpa only [if_true] using save _
  | false =>
      simp only [Bool.false_eq_true, if_false]
      exact throw _

end Commits

end Action

/-! ### What each request saves -/

/-- A name stands for a memo of a user. -/
structure Collection.Designates (memos : Collection) (user : UserId) (name : String) (m : Memo) :
    Prop where
  /-- The name has the identifier of the memo. -/
  named : MemoName.ofText? name = some (.single m.id)
  /-- The memo is stored under its identifier. -/
  found : memos.find? m.id = some m
  /-- The memo belongs to the user. -/
  own : m.creator = user

/-- What a new comment is on, if it is one: a memo of the caller with the name given. -/
inductive Collection.Hangs (memos : Collection) (user : UserId) :
    Option String → Option MemoId → Prop
  /-- The new memo is no comment. -/
  | topLevel : Hangs memos user none none
  /-- It is a comment on a memo of the caller. -/
  | comment {name : String} {m : Memo} (parent : memos.Designates user name m) :
      Hangs memos user (some name) (some m.id)

/-- The memo that a call makes of a text. -/
def Circumstances.newMemo (c : Circumstances) (parent : Option MemoId) (content : String)
    (payload : Payload) : Memo :=
  { id := c.freshId, creator := c.user, parent, content, payload, created := c.now 0,
    updated := c.now 0 }

/-- A memo with another text, the payload that comes with it, and the time of the first save. -/
def Circumstances.revised (c : Circumstances) (content : String) (payload : Payload) (m : Memo) :
    Memo :=
  { m with content, payload, updated := c.now 0 }

/-- What an edit of the tags of one memo answers and saves. -/
inductive TagEdit.Retags (edit : TagEdit) (c : Circumstances) (memos : Collection) (m : Memo) :
    Service.Retagging → Option Collection → Prop
  /-- The memo carries the tag. It gets the text and the payload of its edited forest. -/
  | edited {reads : Nat} {nodes : Forest} {text : String}
      (carried : m.payload.hasTag edit.path = true)
      (read : c.parser reads m.content = .ok nodes)
      (written : c.writer (edit.forest nodes) = some text) :
      Retags edit c memos m ⟨m.id, true⟩
        (some (memos.modify m.id (c.revised text (edit.forest nodes).payload)))
  /-- The memo lacks the tag. Nothing is saved. -/
  | spared (lacks : m.payload.hasTag edit.path = false) : Retags edit c memos m ⟨m.id, false⟩ none

section Requests

open TaggedMemos.Action Service

variable {c : Circumstances} {memos : Collection}

/-! The arguments. -/

/-- A text that passes is within the limit. -/
theorem finds_checkLength (content : String) :
    Finds c memos (checkLength content) fun _ => content.length ≤ c.settings.contentLimit := by
  refine Commits.bind .read fun c' same => ?_
  rw [same]
  by_cases long : c.settings.contentLimit < content.length
  · simp only [long, if_true]
    exact .throw _
  · simp only [long, if_false]
    exact .pure ⟨Nat.le_of_not_lt long, rfl⟩

/-- A name that is resolved is that of a single memo. -/
theorem finds_resolveSingle (name : String) :
    Finds c memos (resolveSingle name) fun id => MemoName.ofText? name = some (.single id) := by
  rw [resolveSingle]
  split
  · next id named => exact .pure ⟨named, rfl⟩
  · exact .throw _
  · exact .throw _

/-- The same where the name of all memos is refused with a complaint of its own. -/
theorem finds_resolveUnless (everywhere : Complaint) (name : String) :
    Finds c memos (resolveUnless everywhere name) fun id =>
      MemoName.ofText? name = some (.single id) := by
  rw [resolveUnless]
  split
  · next id named => exact .pure ⟨named, rfl⟩
  · exact .throw _
  · exact .throw _

/-- A memo that is loaded by its name is one that the name stands for. -/
theorem designates_of_found {name : String} {id : MemoId} {m : Memo}
    (named : MemoName.ofText? name = some (.single id)) (found : memos.find? id = some m)
    (own : m.creator = c.user) : memos.Designates c.user name m := by
  obtain ⟨-, rfl⟩ := find?_eq_some found
  exact ⟨named, found, own⟩

/-- A parent that is resolved is missing, or a memo of the caller. -/
theorem finds_resolveParent (parent : Option String) :
    Finds c memos (resolveParent parent) (memos.Hangs c.user parent) := by
  cases parent with
  | none => exact .pure ⟨.topLevel, rfl⟩
  | some name =>
      refine Commits.bind (finds_resolveSingle name) fun id named => ?_
      refine Commits.bind (.loadOwned id) fun m => ?_
      rintro ⟨found, own⟩
      exact .pure ⟨.comment (designates_of_found named found own), rfl⟩

/-! The requests. -/

/-- A new memo is added at the end, with the payload read from its text. -/
theorem commits_createMemo (content : String) (parent : Option String) :
    Commits c memos (createMemo content parent) fun m next =>
      ∃ above payload, content.length ≤ c.settings.contentLimit ∧
        memos.Hangs c.user parent above ∧ c.Reads content payload ∧
        memos.hasId c.freshId = false ∧ m = c.newMemo above content payload ∧
        next = some (memos ++ [m]) := by
  refine Commits.bind (finds_checkLength content) fun _ short => ?_
  refine Commits.bind (finds_resolveParent parent) fun above hangs => ?_
  refine Commits.bind (.payloadOf content) fun payload read => ?_
  refine Commits.bind .read fun c' same => ?_
  subst same
  refine Commits.bind .clock fun now same => ?_
  subst same
  refine (Commits.create _).noted fun m next => ?_
  rintro ⟨fresh, rfl, rfl⟩
  exact ⟨above, payload, short, hangs, read, fresh, rfl, rfl⟩

/-- A memo gets another text and the payload read from it. It is loaded once more, and found. -/
theorem commits_updateMemo (name content : String) :
    Commits c memos (updateMemo name content) fun m' next =>
      ∃ m payload, content.length ≤ c.settings.contentLimit ∧ memos.Designates c.user name m ∧
        c.Reads content payload ∧ m' = c.revised content payload m ∧
        next = some (memos.modify m.id (c.revised content payload)) := by
  refine Commits.bind (finds_checkLength content) fun _ short => ?_
  refine Commits.bind (finds_resolveSingle name) fun id named => ?_
  refine Commits.bind (.loadOwned id) fun m => ?_
  rintro ⟨found, own⟩
  obtain ⟨-, rfl⟩ := find?_eq_some found
  have replaced : Commits c memos (Store.replaceContent m.id content) fun _ next =>
      ∃ payload, c.Reads content payload ∧
        next = some (memos.modify m.id (c.revised content payload)) := by
    refine Commits.bind (.payloadOf content) fun payload read => ?_
    exact (Commits.update _ _).imp fun _ next saved => ⟨payload, read, saved⟩
  refine replaced.followed (fun _ => ?_) fun _ next q => ?_
  · refine .bind (.note _) fun _ => .bind (.find? _) fun found => ?_
    cases found with
    | none => exact .throw _
    | some m => exact .pure m
  · rintro ⟨payload, read, rfl⟩ current
    refine ⟨c.revised content payload m, ?_, m, payload, short, ⟨named, found, own⟩, read, rfl, rfl⟩
    have after : (memos.modify m.id (c.revised content payload)).find? m.id =
        some (c.revised content payload m) := by
      have kept : ∀ x, (c.revised content payload x).id = x.id := fun _ => rfl
      rw [find?_modify_self kept, found, Option.map_some]
    have current' : ({ q with log := .memoUpdated m.id :: q.log } : Progress).current =
        .ok (memos.modify m.id (c.revised content payload)) := current
    simp only [outcome_bind, outcome_note, Store.find?, outcome_load, current', outcome_pure, after]

/-- A memo is removed together with the comments on it. -/
theorem commits_deleteMemo (name : String) :
    Commits c memos (deleteMemo name) fun id next =>
      ∃ m, memos.Designates c.user name m ∧ id = m.id ∧ next = some (memos.without m.id) := by
  refine Commits.bind (finds_resolveSingle name) fun id named => ?_
  refine Commits.bind (.loadOwned id) fun m => ?_
  rintro ⟨found, own⟩
  obtain ⟨-, rfl⟩ := find?_eq_some found
  exact (Commits.delete m.id).noted fun _ next saved => ⟨m, ⟨named, found, own⟩, rfl, saved⟩

/-- The part that both edits of the tags of one memo have in common. -/
theorem commits_retag (edit : TagEdit) (id : MemoId) {forest : Forest → Edited (List Node)}
    {edited : Nat → Occurrence} (same : ∀ nodes, (forest nodes).result = edit.forest nodes) :
    Commits c memos (retag id edit.path forest edited) fun retagging next =>
      ∃ m, memos.find? id = some m ∧ m.creator = c.user ∧ edit.Retags c memos m retagging next := by
  refine Commits.bind (.loadOwned id) fun m => ?_
  rintro ⟨found, own⟩
  obtain ⟨-, rfl⟩ := find?_eq_some found
  cases carried : m.payload.hasTag edit.path with
  | true =>
      simp only [if_true]
      refine Commits.bind (.parse m.content) fun nodes => ?_
      rintro ⟨reads, read⟩
      rw [same]
      refine Commits.bind (.write _) fun text written => ?_
      refine (Commits.update m.id _).noted fun _ next saved => ?_
      subst saved
      exact ⟨m, found, own, .edited carried read written⟩
  | false =>
      simp only [Bool.false_eq_true, if_false]
      exact .pure ⟨m, found, own, .spared carried⟩

/-- What an edit of the tags of one memo saves. -/
theorem commits_edit {request : Request} (edits : request.editsOneMemo = true) :
    Commits c memos request.perform fun answer next =>
      ∃ retagging id edit m, answer = .retagged retagging ∧ request.Edits id edit ∧
        memos.find? id = some m ∧ m.creator = c.user ∧ edit.Retags c memos m retagging next := by
  have finish : ∀ {x : Action Retagging}, Commits c memos x (fun retagging next =>
      ∃ id edit m, request.Edits id edit ∧ memos.find? id = some m ∧ m.creator = c.user ∧
        edit.Retags c memos m retagging next) →
      Commits c memos (x >>= fun retagging => pure (Answer.retagged retagging)) fun answer next =>
        ∃ retagging id edit m, answer = .retagged retagging ∧ request.Edits id edit ∧
          memos.find? id = some m ∧ m.creator = c.user ∧ edit.Retags c memos m retagging next := by
    intro x commits
    refine commits.map ?_
    rintro retagging next ⟨id, edit, m, edits, found, own, retags⟩
    exact ⟨retagging, id, edit, m, rfl, edits, found, own, retags⟩
  cases request with
  | renameMemoTag name oldInput newInput =>
      refine finish (Commits.bind (finds_resolveUnless _ name) fun id named => ?_)
      refine Commits.bind (.requirePath oldInput _) fun old accepted => ?_
      refine Commits.bind (.requirePath newInput _) fun new accepted' => ?_
      refine (commits_retag (.rename old new) id fun _ => rfl).imp ?_
      rintro retagging next ⟨m, found, own, retags⟩
      exact ⟨id, _, m, .rename named accepted accepted', found, own, retags⟩
  | deleteMemoTag name input =>
      refine finish (Commits.bind (finds_resolveUnless _ name) fun id named => ?_)
      refine Commits.bind (.requirePath input _) fun path accepted => ?_
      refine (commits_retag (.remove path) id fun _ => rfl).imp ?_
      rintro retagging next ⟨m, found, own, retags⟩
      exact ⟨id, _, m, .remove named accepted, found, own, retags⟩
  | _ => cases edits

end Requests

/-! ### All or nothing -/

/-- A call whose request commits saves nothing if it fails, and what is known if it succeeds. -/
theorem Call.outcome_of_commits {call : Call} {memos : Collection}
    {Q : Answer → Option Collection → Prop}
    (commits : Action.Commits call.circumstances memos call.request.perform Q) :
    (∀ fault, (call.outcome memos).1 = .error fault → call.saved memos = []) ∧
      ∀ answer, (call.outcome memos).1 = .ok answer →
        ∃ next, call.saved memos = next.toList ∧ Q answer next := by
  have ends := commits { stored := .ok memos } rfl rfl
  rw [Call.saved, Call.outcome]
  rcases h : call.request.perform.outcome call.circumstances { stored := .ok memos } with
    ⟨fault | a, q⟩ <;> rw [h] at ends
  · exact ⟨fun _ _ => ends, fun answer succeeded => by cases succeeded⟩
  · refine ⟨fun fault failed => (by cases failed), fun answer succeeded => ?_⟩
    obtain rfl := Except.ok.inj succeeded
    obtain ⟨next, saved, -, -, value⟩ := ends
    exact ⟨next, by simpa using saved, value⟩

/-- Whether a request is about one memo. -/
def Request.isAboutOneMemo : Request → Bool
  | createMemo .. | updateMemo .. | deleteMemo .. | renameMemoTag .. | deleteMemoTag .. => true
  | _ => false

/-- How a request about one memo succeeds: what is answered, and what is saved. -/
inductive Request.Settles (c : Circumstances) (memos : Collection) :
    Request → Answer → List Collection → Prop
  /-- One memo is added, with an identifier of its own. -/
  | created {content : String} {parent : Option String} {above : Option MemoId} {payload : Payload}
      (short : content.length ≤ c.settings.contentLimit)
      (hangs : memos.Hangs c.user parent above) (read : c.Reads content payload)
      (fresh : c.freshId ∉ ids memos) :
      Settles c memos (.createMemo content parent) (.memo (c.newMemo above content payload))
        [memos ++ [c.newMemo above content payload]]
  /-- The memo gets the text, and the payload read from it. -/
  | updated {name content : String} {m : Memo} {payload : Payload}
      (short : content.length ≤ c.settings.contentLimit)
      (named : memos.Designates c.user name m) (read : c.Reads content payload) :
      Settles c memos (.updateMemo name content) (.memo (c.revised content payload m))
        [memos.map fun x => if x = m then c.revised content payload m else x]
  /-- The memo goes, and every comment on it. -/
  | deleted {name : String} {m : Memo} (named : memos.Designates c.user name m) :
      Settles c memos (.deleteMemo name) (.deleted m.id)
        [memos.filter fun x => x ≠ m ∧ x.parent ≠ some m.id]
  /-- The memo carries the tag. It gets the text and the payload of its edited forest. -/
  | edited {request : Request} {edit : TagEdit} {m : Memo} {reads : Nat} {nodes : Forest}
      {text : String} (edits : request.Edits m.id edit) (found : memos.find? m.id = some m)
      (own : m.creator = c.user) (carried : m.payload.hasTag edit.path = true)
      (read : c.parser reads m.content = .ok nodes)
      (written : c.writer (edit.forest nodes) = some text) :
      Settles c memos request (.retagged ⟨m.id, true⟩)
        [memos.map fun x => if x = m then c.revised text (edit.forest nodes).payload m else x]
  /-- The memo lacks the tag. -/
  | spared {request : Request} {edit : TagEdit} {m : Memo} (edits : request.Edits m.id edit)
      (found : memos.find? m.id = some m) (own : m.creator = c.user)
      (lacks : m.payload.hasTag edit.path = false) :
      Settles c memos request (.retagged ⟨m.id, false⟩) []

/-- A request about one memo commits to what settles it. -/
theorem commits_settles {c : Circumstances} {memos : Collection} {request : Request}
    (about : request.isAboutOneMemo = true) (distinct : (ids memos).Nodup) :
    Action.Commits c memos request.perform fun answer next =>
      request.Settles c memos answer next.toList := by
  have edit : request.editsOneMemo = true → Action.Commits c memos request.perform
      fun answer next => request.Settles c memos answer next.toList := by
    intro edits
    refine (commits_edit edits).imp ?_
    rintro _ next ⟨retagging, id, edit, m, rfl, edits, found, own, retags⟩
    obtain ⟨member, rfl⟩ := find?_eq_some found
    cases retags with
    | edited carried read written =>
        rw [modify_eq_replace distinct member]
        exact .edited edits found own carried read written
    | spared lacks => exact .spared edits found own lacks
  cases request with
  | createMemo content parent =>
      refine (commits_createMemo content parent).map ?_
      rintro _ _ ⟨above, payload, short, hangs, read, fresh, rfl, rfl⟩
      have unused : c.freshId ∉ ids memos := fun used => by simp [hasId_iff.mpr used] at fresh
      exact .created short hangs read unused
  | updateMemo name content =>
      refine (commits_updateMemo name content).map ?_
      rintro _ _ ⟨m, payload, short, named, read, rfl, rfl⟩
      rw [modify_eq_replace distinct (find?_eq_some named.found).1]
      exact .updated short named read
  | deleteMemo name =>
      refine (commits_deleteMemo name).map ?_
      rintro _ _ ⟨m, named, rfl, rfl⟩
      rw [without_eq_filter distinct (find?_eq_some named.found).1]
      exact .deleted named
  | renameMemoTag name old new => exact edit rfl
  | deleteMemoTag name path => exact edit rfl
  | _ => cases about

/-- A request about a memo edits it in one way only. -/
theorem Request.Edits.unique {request : Request} {id id' : MemoId} {edit edit' : TagEdit}
    (edits : request.Edits id edit) (edits' : request.Edits id' edit') :
    id' = id ∧ edit' = edit := by
  cases edits with
  | remove single accepted =>
      cases edits' with
      | remove single' accepted' =>
          rw [single] at single'
          rw [accepted] at accepted'
          cases single'
          cases accepted'
          exact ⟨rfl, rfl⟩
  | rename single accepted accepted' =>
      cases edits' with
      | rename single₁ accepted₁ accepted₁' =>
          rw [single] at single₁
          rw [accepted] at accepted₁
          rw [accepted'] at accepted₁'
          cases single₁
          cases accepted₁
          cases accepted₁'
          exact ⟨rfl, rfl⟩

/-- **All or nothing.** A request about one memo that fails, for whatever reason, leaves the store
as it was. One that succeeds changes its memo and no other one, and a memo that an edit of tags is
about is left alone exactly if its payload lacks the tag. -/
theorem single_memo_all_or_nothing {call : Call} {memos : Collection}
    (about : call.request.isAboutOneMemo = true) (distinct : (ids memos).Nodup) :
    (∀ fault, (call.outcome memos).1 = .error fault →
        call.saved memos = [] ∧ call.after memos = memos) ∧
      (∀ answer, (call.outcome memos).1 = .ok answer →
        call.request.Settles call.circumstances memos answer (call.saved memos)) ∧
      ∀ id edit m retagging, call.request.Edits id edit → memos.find? id = some m →
        (call.outcome memos).1 = .ok (.retagged retagging) →
        (retagging.changed = false ↔ m.payload.hasTag edit.path = false) ∧
          (retagging.changed = false → call.saved memos = []) := by
  obtain ⟨fails, succeeds⟩ := Call.outcome_of_commits (commits_settles about distinct)
  have settled : ∀ answer, (call.outcome memos).1 = .ok answer →
      call.request.Settles call.circumstances memos answer (call.saved memos) := by
    intro answer succeeded
    obtain ⟨next, saved, settles⟩ := succeeds answer succeeded
    rwa [saved]
  refine ⟨fun fault failed => ?_, settled, fun id edit m retagging edits found succeeded => ?_⟩
  · have quiet := fails fault failed
    exact ⟨quiet, by rw [Call.after, quiet]; rfl⟩
  · have settles := settled _ succeeded
    generalize call.saved memos = saved at settles
    generalize call.request = request at settles edits
    generalize same : Answer.retagged retagging = answer at settles
    cases settles with
    | created => cases same
    | updated => cases same
    | deleted => cases same
    | edited edits' found' _ carried =>
        cases same
        obtain ⟨rfl, rfl⟩ := edits.unique edits'
        obtain rfl := Option.some.inj (found.symm.trans found')
        exact ⟨by simp [carried], fun unchanged => by cases unchanged⟩
    | spared edits' found' _ lacks =>
        cases same
        obtain ⟨rfl, rfl⟩ := edits.unique edits'
        obtain rfl := Option.some.inj (found.symm.trans found')
        exact ⟨by simp [lacks], fun _ => rfl⟩

/-- A tag is removed from a memo with a comment, and the same where the medium refuses to save. -/
theorem single_memo_all_or_nothing_removal :
    let m := soleMemo "x #a" ["/a"]
    let comment : Memo := { soleMemo "#a" ["/a"] with id := .ofNat 3, parent := some m.id }
    let call := plainCall (.deleteMemoTag "memos/00000000000000000000000000000001" "a")
    let refused : Call :=
      ⟨{ call.circumstances with saveFault := fun _ => some (.store .simulated) }, call.request⟩
    (refused.outcome [m, comment]).1 = .error (.store .simulated) ∧
      refused.after [m, comment] = [m, comment] ∧
      call.request.Settles call.circumstances [m, comment] (.retagged ⟨m.id, true⟩)
        (call.saved [m, comment]) := by
  intro m comment call refused
  have distinct : (ids [m, comment]).Nodup := by decide +kernel
  have failed : (refused.outcome [m, comment]).1 = .error (.store .simulated) := by decide +kernel
  have succeeded : (call.outcome [m, comment]).1 = .ok (.retagged ⟨m.id, true⟩) := by
    decide +kernel
  obtain ⟨fails, -, -⟩ := @single_memo_all_or_nothing refused [m, comment] rfl distinct
  obtain ⟨-, settles, -⟩ := @single_memo_all_or_nothing call [m, comment] rfl distinct
  exact ⟨failed, (fails _ failed).2, settles _ succeeded⟩

end TaggedMemos
