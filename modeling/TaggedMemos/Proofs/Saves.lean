import Mathlib.Logic.Relation
import TaggedMemos.Proofs.Outcome

/-!
# What Actions Save

A request changes a store only by saving a collection in place of the one before, and it may stop
after any save. `Action.Saves c R P x Q` states what is needed of such a sequence of saves: begun
where `P` holds of the collection stored, the action `x` makes saves each of which is related by
`R` to the collection before it, whether it succeeds or fails, and if it succeeds then `Q` holds
of its value and of the collection stored then.

`P` and `Q` follow the collection through the steps of one action, while `R` is about every save
of it. A statement about all states of a store is therefore a statement about `R`, and needs
nothing but what a single save can do.

## Main results

* `Saves.bind`, `Saves.tryCatch`: the rules for composition. A fault that is caught is met in a
  collection that saves related by `R` lead to.
* `Quiet`, `Saves.of_quiet`: an action that saves nothing keeps what holds of the store.
* `Saves.create`, `Saves.update`, `Saves.delete`: the only three saves there are.
* `Saves.sweepFrom`, `Saves.rebuildFrom`: the loops over several memos.
-/

namespace TaggedMemos

/-! ### Sequences of saves -/

/-- Collections saved one after the other, the last one first, each related to the one before it
and the first one to `memos`. -/
def Linked (R : Collection → Collection → Prop) (memos : Collection) : List Collection → Prop
  | [] => True
  | next :: earlier => R (earlier.headD memos) next ∧ Linked R memos earlier

namespace Linked

variable {R R' : Collection → Collection → Prop} {memos : Collection}

/-- What is stored after two sequences of saves in a row. -/
theorem headD_append (later earlier : List Collection) :
    (later ++ earlier).headD memos = later.headD (earlier.headD memos) := by
  cases later with
  | nil => rfl
  | cons _ _ => rfl

/-- Two sequences of saves in a row. -/
theorem append {later earlier : List Collection} (first : Linked R memos earlier)
    (second : Linked R (earlier.headD memos) later) : Linked R memos (later ++ earlier) := by
  induction later with
  | nil => exact first
  | cons next later ih =>
      obtain ⟨related, rest⟩ := second
      rw [List.cons_append]
      refine ⟨?_, ih rest⟩
      rw [headD_append]
      exact related

/-- Saves that are related are related in another way, if that follows for each of them from what
the saves before it have preserved. -/
theorem relink {I : Collection → Prop} (initial : I memos)
    (step : ∀ s s', I s → R s s' → R' s s' ∧ I s') {trail : List Collection}
    (linked : Linked R memos trail) : Linked R' memos trail := by
  suffices both : Linked R' memos trail ∧ I (trail.headD memos) from both.1
  induction trail with
  | nil => exact ⟨trivial, initial⟩
  | cons next earlier ih =>
      obtain ⟨before, holds⟩ := ih linked.2
      obtain ⟨related, after⟩ := step _ _ holds linked.1
      exact ⟨⟨related, before⟩, after⟩

/-- A weaker relation holds between the same saves. -/
theorem mono (weaker : ∀ s s', R s s' → R' s s') {trail : List Collection}
    (linked : Linked R memos trail) : Linked R' memos trail :=
  linked.relink (I := fun _ => True) trivial fun s s' _ related => ⟨weaker s s' related, trivial⟩

/-- Where no two saves in a row can be related, there is one at most. -/
theorem single {trail : List Collection} (linked : Linked R memos trail)
    (alone : ∀ s s' s'', R s s' → ¬ R s' s'') :
    trail = [] ∨ ∃ memos', trail = [memos'] ∧ R memos memos' := by
  match trail, linked with
  | [], _ => exact .inl rfl
  | [memos'], linked => exact .inr ⟨memos', rfl, linked.1⟩
  | _ :: _ :: _, ⟨later, earlier, _⟩ => exact absurd later (alone _ _ _ earlier)

/-- The last collection saved is reached from the first one by related saves. -/
theorem reflTransGen {trail : List Collection} (linked : Linked R memos trail) :
    Relation.ReflTransGen R memos (trail.headD memos) := by
  induction trail with
  | nil => exact .refl
  | cons next earlier ih => exact (ih linked.2).tail linked.1

/-- What every related save preserves holds of every collection saved. -/
theorem forall_mem {I : Collection → Prop} (preserved : ∀ s s', I s → R s s' → I s')
    (initial : I memos) {trail : List Collection} (linked : Linked R memos trail) :
    ∀ s ∈ trail, I s := by
  induction trail with
  | nil => simp
  | cons next earlier ih =>
      have before : I (earlier.headD memos) := by
        cases earlier with
        | nil => exact initial
        | cons last _ => exact ih linked.2 last (by simp)
      intro s hs
      rcases List.mem_cons.mp hs with rfl | hs
      · exact preserved _ _ before linked.1
      · exact ih linked.2 s hs

end Linked

/-- A query selects memos that it admits, and only from those it is given. -/
theorem Query.mem_and_admits_of_mem_select {query : Query} {memos : List Memo} {m : Memo}
    (selected : m ∈ query.select memos) : m ∈ memos ∧ query.admits m = true := by
  have found : m ∈ (memos.filter query.admits).drop query.offset := by
    rw [select] at selected
    split at selected
    · exact List.mem_of_mem_take selected
    · exact selected
  exact List.mem_filter.mp (List.mem_of_mem_drop found)

namespace Action

variable {α β : Type} {c : Circumstances}

/-- Saves leave the last collection saved stored. -/
theorem current_of_saved {p q : Progress} {memos : Collection} {trail : List Collection}
    (current : p.current = .ok memos) (stored : q.stored = p.stored)
    (saved : q.saved = trail ++ p.saved) : q.current = .ok (trail.headD memos) := by
  cases trail with
  | nil => simpa [Progress.current, saved, stored] using current
  | cons last _ => simp [Progress.current, saved]

/-! ### Actions that save nothing -/

/-- An action that tries no save under given circumstances, whatever came before it. -/
def Quiet (c : Circumstances) (x : Action α) : Prop :=
  ∀ p, (x.outcome c p).2.saved = p.saved ∧ (x.outcome c p).2.stored = p.stored ∧
    (x.outcome c p).2.refused = p.refused

namespace Quiet

/-- An action that saves nothing may be followed by others of this kind. -/
theorem bind {x : Action α} {f : α → Action β} (first : Quiet c x) (second : ∀ a, Quiet c (f a)) :
    Quiet c (x >>= f) := by
  intro p
  have before := first p
  rw [outcome_bind]
  rcases h : x.outcome c p with ⟨_ | a, q⟩ <;> rw [h] at before
  · exact before
  · obtain ⟨saved, stored, refused⟩ := second a q
    exact ⟨saved.trans before.1, stored.trans before.2.1, refused.trans before.2.2⟩

theorem pure (a : α) : Quiet c (pure a : Action α) := fun _ => ⟨rfl, rfl, rfl⟩

/-- A fault saves nothing. -/
theorem throw (fault : Fault) : Quiet c (throw fault : Action α) := fun _ => ⟨rfl, rfl, rfl⟩

theorem read : Quiet c (read : Action Circumstances) := fun _ => ⟨rfl, rfl, rfl⟩

theorem clock : Quiet c clock := fun _ => ⟨rfl, rfl, rfl⟩

theorem note (occurrence : Occurrence) : Quiet c (note occurrence) := fun _ => ⟨rfl, rfl, rfl⟩

/-- Reading what is stored saves nothing. -/
theorem load : Quiet c load := by
  intro p
  simp

/-- Parsing saves nothing. -/
theorem parse (content : String) : Quiet c (parse content) := by
  intro p
  simp [outcome_parse]

/-- Reading a payload saves nothing. -/
theorem payloadOf (content : String) : Quiet c (payloadOf content) :=
  (parse content).bind fun _ => .pure _

/-- A look at whether the call is cancelled saves nothing. -/
theorem ensureActive : Quiet c ensureActive := by
  intro p
  simp [outcome_ensureActive]

/-- Validation saves nothing. -/
theorem requirePath (input field : String) : Quiet c (requirePath input field) := by
  intro p
  simp [outcome_requirePath]

/-- A selection of memos saves nothing. -/
theorem list (query : Query) : Quiet c (Store.list query) :=
  load.bind fun _ => .pure _

/-- A search for a memo saves nothing. -/
theorem find? (id : MemoId) : Quiet c (Store.find? id) :=
  load.bind fun _ => .pure _

/-- A selection of the caller's memos saves nothing. -/
theorem ownedWith (filter : TagFilter) : Quiet c (Store.ownedWith filter) :=
  read.bind fun _ => list _

/-- Loading a memo of the caller saves nothing. -/
theorem loadOwned (id : MemoId) : Quiet c (Store.loadOwned id) := by
  refine (find? id).bind fun found => ?_
  cases found with
  | none => exact .throw _
  | some m =>
      refine read.bind fun c' => ?_
      by_cases own : m.creator = c'.user
      · simpa only [own, if_true] using .pure m
      · simpa only [own, if_false] using .throw _

/-! Requests are begun by looking at their arguments. -/

/-- A complaint saves nothing. -/
theorem reject (complaint : Complaint) : Quiet c (reject complaint : Action α) := .throw _

/-- A look at the length of a text saves nothing. -/
theorem checkLength (content : String) : Quiet c (Service.checkLength content) := by
  refine read.bind fun c' => ?_
  by_cases long : c'.settings.contentLimit < content.length
  · simp only [long, if_true]
    exact .reject _
  · simp only [long, if_false]
    exact .pure _

/-- Resolving a name saves nothing. -/
theorem resolveSingle (name : String) : Quiet c (Service.resolveSingle name) := by
  rw [Service.resolveSingle]
  split
  · exact .pure _
  · exact .reject _
  · exact .reject _

/-- Resolving a name with a complaint of its own saves nothing. -/
theorem resolveUnless (everywhere : Complaint) (name : String) :
    Quiet c (Service.resolveUnless everywhere name) := by
  rw [Service.resolveUnless]
  split
  · exact .pure _
  · exact .reject _
  · exact .reject _

/-- Resolving a parent saves nothing. -/
theorem resolveParent (parent : Option String) : Quiet c (Service.resolveParent parent) := by
  cases parent with
  | none => exact .pure _
  | some name => exact (resolveSingle name).bind fun id => (loadOwned id).bind fun _ => .pure _

/-! Questions save nothing at all. -/

/-- Requests that read one memo save nothing. -/
theorem getMemo (name : String) : Quiet c (Service.getMemo name) :=
  (resolveSingle name).bind fun id => loadOwned id

/-- Requests that read many memos save nothing. -/
theorem listMemos (tag : Option String) : Quiet c (Service.listMemos tag) := by
  cases tag with
  | none => exact read.bind fun _ => list _
  | some tag => exact (requirePath tag "tag").bind fun path => ownedWith _

/-- Making the index of the caller's tags saves nothing. -/
theorem callerTags : Quiet c Service.callerTags :=
  read.bind fun _ => (list _).bind fun _ => (note _).bind fun _ => .pure _

/-- Requests that list tags save nothing. -/
theorem listTags (query : Service.TagQuery) : Quiet c (Service.listTags query) :=
  callerTags.bind fun _ => .pure _

/-- Requests that read one tag save nothing. -/
theorem getTag (input : String) (withIds : Bool) : Quiet c (Service.getTag input withIds) := by
  refine (requirePath input "tag_path").bind fun path => callerTags.bind fun index => ?_
  cases index.withHierarchy.find? path with
  | none => exact .throw _
  | some node => exact .pure _

end Quiet

/-! ### Actions that save all or nothing -/

/-- An action that saves nothing if it fails, whatever came before it. -/
def Atomic (c : Circumstances) (x : Action α) : Prop :=
  ∀ p fault, (x.outcome c p).1 = .error fault → (x.outcome c p).2.saved = p.saved

namespace Atomic

/-- What saves nothing saves nothing when it fails. -/
theorem of_quiet {x : Action α} (quiet : Quiet c x) : Atomic c x := fun p _ _ => (quiet p).1

/-- What saves nothing may come first. -/
theorem after_quiet {x : Action α} {f : α → Action β} (quiet : Quiet c x)
    (second : ∀ a, Atomic c (f a)) : Atomic c (x >>= f) := by
  intro p fault failed
  have before := (quiet p).1
  rw [outcome_bind] at failed ⊢
  rcases h : x.outcome c p with ⟨_ | a, q⟩ <;> rw [h] at before failed
  · exact before
  · exact (second a q fault failed).trans before

/-- What never fails may come last. -/
theorem bind_of_ok {x : Action α} {f : α → Action β} (first : Atomic c x)
    (total : ∀ a p, ∃ b, ((f a).outcome c p).1 = .ok b) : Atomic c (x >>= f) := by
  intro p fault failed
  rw [outcome_bind] at failed ⊢
  rcases h : x.outcome c p with ⟨fault' | a, q⟩ <;> rw [h] at failed
  · have nothing := first p fault' (by rw [h])
    rwa [h] at nothing
  · obtain ⟨b, succeeded⟩ := total a q
    cases succeeded.symm.trans failed

/-- A save that fails is not one. -/
theorem save (memos : Collection) : Atomic c (save memos) := by
  intro p fault failed
  rw [outcome_save] at failed ⊢
  cases refused : c.saveFault (p.saved.length + p.refused) with
  | none =>
      rw [refused] at failed
      cases failed
  | some _ => rfl

/-- A new memo is put there by one save, or none. -/
theorem create (m : Memo) : Atomic c (Store.create m) := by
  refine after_quiet .load fun memos => ?_
  cases memos.add? m with
  | none => exact of_quiet (.throw _)
  | some memos' => exact (save memos').bind_of_ok fun _ _ => ⟨m, rfl⟩

end Atomic

/-! ### Actions that save -/

/-- Begun where `P` holds, an action makes saves related by `R`, and if it succeeds then `Q`
holds of its value and of what is stored then. -/
def Saves (c : Circumstances) (R : Collection → Collection → Prop) (P : Collection → Prop)
    (x : Action α) (Q : α → Collection → Prop) : Prop :=
  ∀ p memos, p.current = .ok memos → P memos →
    ∃ trail, (x.outcome c p).2.saved = trail ++ p.saved ∧
      (x.outcome c p).2.stored = p.stored ∧ Linked R memos trail ∧
      ∀ a, (x.outcome c p).1 = .ok a → Q a (trail.headD memos)

namespace Saves

variable {R : Collection → Collection → Prop} {P : Collection → Prop}
variable {Q : α → Collection → Prop} {S : β → Collection → Prop}

/-- An action that saves nothing meets what it begins with, and gives its value there. -/
theorem of_quiet {x : Action α} (quiet : Quiet c x)
    (value : ∀ p memos a, p.current = .ok memos → P memos → (x.outcome c p).1 = .ok a →
      Q a memos) : Saves c R P x Q := by
  intro p memos current holds
  obtain ⟨saved, stored, -⟩ := quiet p
  exact ⟨[], saved, stored, trivial, fun a h => value p memos a current holds h⟩

/-- Saves that are related are related by whatever follows from it. -/
theorem mono {x : Action α} {R' : Collection → Collection → Prop} (saves : Saves c R P x Q)
    (related : ∀ s s', R s s' → R' s s') : Saves c R' P x Q := by
  intro p memos current holds
  obtain ⟨trail, saved, stored, linked, value⟩ := saves p memos current holds
  exact ⟨trail, saved, stored, linked.mono related, value⟩

/-- More may be known to begin with than is needed. -/
theorem imp_before {x : Action α} {P' : Collection → Prop} (saves : Saves c R P x Q)
    (before : ∀ s, P' s → P s) : Saves c R P' x Q :=
  fun p memos current holds => saves p memos current (before memos holds)

/-- More may be given than is needed. -/
theorem imp_after {x : Action α} {Q' : α → Collection → Prop} (saves : Saves c R P x Q)
    (after : ∀ a s, Q a s → Q' a s) : Saves c R P x Q' := by
  intro p memos current holds
  obtain ⟨trail, saved, stored, linked, value⟩ := saves p memos current holds
  exact ⟨trail, saved, stored, linked, fun a h => after a _ (value a h)⟩

/-- An action that is begun after some saves goes on from the last one of them. -/
theorem resume {x : Action α} {p q : Progress} {memos : Collection} {trail : List Collection}
    (saves : Saves c R P x Q) (current : p.current = .ok memos) (stored : q.stored = p.stored)
    (saved : q.saved = trail ++ p.saved) (linked : Linked R memos trail)
    (holds : P (trail.headD memos)) :
    ∃ trail', (x.outcome c q).2.saved = trail' ++ p.saved ∧
      (x.outcome c q).2.stored = p.stored ∧ Linked R memos trail' ∧
      ∀ a, (x.outcome c q).1 = .ok a → Q a (trail'.headD memos) := by
  obtain ⟨trail', saved', stored', linked', value⟩ :=
    saves q _ (current_of_saved current stored saved) holds
  refine ⟨trail' ++ trail, ?_, stored'.trans stored, linked.append linked', fun a h => ?_⟩
  · rw [saved', saved, List.append_assoc]
  · rw [Linked.headD_append]
    exact value a h

/-- Actions are composed where what the first leaves is what the second begins with. -/
theorem bind {x : Action α} {f : α → Action β} (first : Saves c R P x Q)
    (second : ∀ a, Saves c R (Q a) (f a) S) : Saves c R P (x >>= f) S := by
  intro p memos current holds
  obtain ⟨trail, saved, stored, linked, value⟩ := first p memos current holds
  rw [outcome_bind]
  rcases h : x.outcome c p with ⟨fault | a, q⟩ <;> rw [h] at saved stored value
  · exact ⟨trail, saved, stored, linked, by simp⟩
  · exact (second a).resume current stored saved linked (value a rfl)

/-- What follows a step that saves nothing and gives no value. -/
theorem after_quiet {x : Action α} {f : α → Action β} (quiet : Quiet c x)
    (second : ∀ a, Saves c R P (f a) S) : Saves c R P (x >>= f) S :=
  bind (of_quiet quiet fun _ _ _ _ holds _ => holds) second

/-- What an action begins with may be used to find out what the action is. -/
theorem given {x : Action α} (saves : ∀ s, P s → Saves c R P x Q) : Saves c R P x Q :=
  fun p memos current holds => saves memos holds p memos current holds

/-- A value without more to do leaves everything. -/
theorem pure {a : α} (value : ∀ s, P s → Q a s) : Saves c R P (pure a : Action α) Q :=
  of_quiet (.pure a) fun _ memos _ _ holds h => by
    obtain rfl : a = _ := Except.ok.inj h
    exact value memos holds

/-- After a fault there is nothing to be said. -/
theorem throw (fault : Fault) : Saves c R P (throw fault : Action α) Q :=
  of_quiet (.throw fault) fun _ _ _ _ _ h => by cases h

/-- What may end an action with a fault, and saves nothing, leaves what follows it. -/
theorem ite_throw {ends : Prop} [Decidable ends] {fault : Fault} {f : PUnit → Action β}
    (second : ¬ ends → Saves c R P (f ⟨⟩) S) :
    Saves c R P (if ends then (MonadExcept.throw fault : Action PUnit) >>= f else f ⟨⟩) S := by
  by_cases here : ends
  · rw [if_pos here]
    exact bind (Q := fun _ _ => False) (.throw fault) fun _ _ _ _ none => none.elim
  · rw [if_neg here]
    exact second here

/-- A fault that is caught is met in a collection that related saves lead to. -/
theorem tryCatch {x : Action α} {handle : Fault → Action α} (first : Saves c R P x Q)
    (second : ∀ fault,
      Saves c R (fun s' => ∃ s, P s ∧ Relation.ReflTransGen R s s') (handle fault) Q) :
    Saves c R P (tryCatch x handle) Q := by
  intro p memos current holds
  obtain ⟨trail, saved, stored, linked, value⟩ := first p memos current holds
  rw [outcome_tryCatch]
  rcases h : x.outcome c p with ⟨fault | a, q⟩ <;> rw [h] at saved stored value
  · have reached := linked.reflTransGen
    exact (second fault).resume current stored saved linked ⟨memos, holds, reached⟩
  · exact ⟨trail, saved, stored, linked, fun b hb => value b hb⟩

/-! ### Steps whose value matters -/

/-- The circumstances are those of the call. -/
theorem read : Saves c R P (read : Action Circumstances) (fun c' s => c' = c ∧ P s) :=
  of_quiet .read fun _ _ _ _ holds h => ⟨(Except.ok.inj h).symm, holds⟩

/-- What is loaded is what is stored. -/
theorem load : Saves c R P load (fun memos s => memos = s ∧ P s) := by
  refine of_quiet .load fun p memos a current holds h => ⟨?_, holds⟩
  rw [outcome_load, current] at h
  exact (Except.ok.inj h).symm

/-- A time is what the clock shows at some save. -/
theorem clock : Saves c R P clock (fun now s => (∃ tries, now = c.now tries) ∧ P s) :=
  of_quiet .clock fun p _ _ _ holds h => ⟨⟨p.tries, (Except.ok.inj h).symm⟩, holds⟩

/-- What is listed is a selection from what is stored. -/
theorem list (query : Query) :
    Saves c R P (Store.list query) (fun memos s => memos = query.select s ∧ P s) :=
  load.bind fun _ => .pure fun _ ⟨rfl, holds⟩ => ⟨rfl, holds⟩

/-- What is found is what is stored under the identifier. -/
theorem find? (id : MemoId) :
    Saves c R P (Store.find? id) (fun found s => found = s.find? id ∧ P s) :=
  load.bind fun _ => .pure fun _ ⟨rfl, holds⟩ => ⟨rfl, holds⟩

/-- The memos of the caller that are no comments and whose tags meet a condition. -/
theorem ownedWith (filter : TagFilter) :
    Saves c R P (Store.ownedWith filter)
      (fun memos s => memos = ((Query.ownedBy c.user).withTag filter).select s ∧ P s) := by
  refine read.bind fun c' => (list _).imp_after ?_
  rintro memos s ⟨rfl, rfl, holds⟩
  exact ⟨rfl, holds⟩

/-- A memo that could be loaded is stored under its identifier and belongs to the caller. -/
theorem loadOwned (id : MemoId) :
    Saves c R P (Store.loadOwned id)
      (fun m s => s.find? id = some m ∧ m.creator = c.user ∧ P s) := by
  refine (find? id).bind fun found => ?_
  cases found with
  | none => exact .throw _
  | some m =>
      refine read.bind fun c' => ?_
      by_cases own : m.creator = c'.user
      · simp only [own, if_true]
        refine .pure ?_
        rintro s ⟨rfl, found, holds⟩
        exact ⟨found.symm, own, holds⟩
      · simp only [own, if_false]
        exact .throw _

/-- A forest is what the parser gave at some point. -/
theorem parse (content : String) :
    Saves c R P (parse content)
      (fun nodes s => (∃ reads, c.parser reads content = .ok nodes) ∧ P s) := by
  refine of_quiet (.parse content) fun p memos nodes _ holds h => ⟨⟨p.reads, ?_⟩, holds⟩
  rw [outcome_parse] at h
  exact mapError_eq_ok.mp h

/-- A payload is that of a forest that the parser gave at some point. -/
theorem payloadOf (content : String) :
    Saves c R P (payloadOf content)
      (fun payload s =>
        (∃ reads nodes, c.parser reads content = .ok nodes ∧ payload = nodes.payload) ∧ P s) :=
  (parse content).bind fun nodes => .pure fun _ ⟨⟨reads, accepted⟩, holds⟩ =>
    ⟨⟨reads, nodes, accepted, rfl⟩, holds⟩

/-- A text is what the writer made of a forest. -/
theorem write (nodes : Forest) :
    Saves c R P (write nodes) (fun content s => c.writer nodes = some content ∧ P s) := by
  refine read.bind fun c' => ?_
  cases written : c'.writer nodes with
  | none => exact .throw _
  | some content =>
      refine .pure ?_
      rintro s ⟨rfl, holds⟩
      exact ⟨written, holds⟩

/-- A path that could be required was accepted. -/
theorem requirePath (input field : String) :
    Saves c R P (requirePath input field)
      (fun path s => TagPath.validate input = .ok path ∧ P s) := by
  refine of_quiet (.requirePath input field) fun p memos path _ holds h => ⟨?_, holds⟩
  rw [outcome_requirePath] at h
  exact mapError_eq_ok.mp h

/-! ### The three ways of saving -/

/-- A collection is saved in place of one for which `P` held. -/
theorem save {memos : Collection} (related : ∀ s, P s → R s memos) :
    Saves c R P (save memos) (fun _ s' => s' = memos ∧ ∃ s, P s) := by
  intro p s current holds
  rw [outcome_save]
  cases c.saveFault (p.saved.length + p.refused) with
  | some fault => exact ⟨[], rfl, rfl, trivial, by simp⟩
  | none => exact ⟨[memos], rfl, rfl, ⟨related s holds, trivial⟩, fun _ _ => ⟨rfl, s, holds⟩⟩

/-- A new memo is saved at the end, and only if its identifier is not in use. -/
theorem create {m : Memo} (related : ∀ s, P s → s.hasId m.id = false → R s (s ++ [m])) :
    Saves c R P (Store.create m)
      (fun m' s' => m' = m ∧ ∃ s, P s ∧ s.hasId m.id = false ∧ s' = s ++ [m]) := by
  refine load.bind fun memos => ?_
  cases taken : memos.hasId m.id with
  | true =>
      simp only [Collection.add?, taken, if_true]
      exact .throw _
  | false =>
      simp only [Collection.add?, taken, Bool.false_eq_true, if_false]
      refine (save ?_).bind fun _ => .pure ?_
      · rintro s ⟨rfl, holds⟩
        exact related _ holds taken
      · rintro s' ⟨rfl, s, rfl, holds⟩
        exact ⟨rfl, _, holds, taken, rfl⟩

/-- A memo is changed in its place, and only if it exists. -/
theorem update {id : MemoId} {change : Change}
    (related : ∀ s tries, P s → s.hasId id = true →
      R s (s.modify id (change.apply (c.now tries)))) :
    Saves c R P (Store.update id change)
      (fun _ s' => ∃ s tries, P s ∧ s.hasId id = true ∧
        s' = s.modify id (change.apply (c.now tries))) := by
  refine load.bind fun memos => ?_
  cases known : memos.hasId id with
  | false =>
      simp only [Bool.false_eq_true, if_false]
      exact .throw _
  | true =>
      simp only [if_true]
      refine clock.bind fun now => ?_
      refine (save ?_).imp_after ?_
      · rintro s ⟨⟨tries, rfl⟩, rfl, holds⟩
        exact related _ tries holds known
      · rintro _ s' ⟨rfl, s, ⟨tries, rfl⟩, rfl, holds⟩
        exact ⟨_, tries, holds, known, rfl⟩

/-- A memo is removed together with the comments on it, and only if it exists. -/
theorem delete {id : MemoId} (related : ∀ s, P s → s.hasId id = true → R s (s.without id)) :
    Saves c R P (Store.delete id)
      (fun _ s' => ∃ s, P s ∧ s.hasId id = true ∧ s' = s.without id) := by
  refine load.bind fun memos => ?_
  cases known : memos.hasId id with
  | false =>
      simp only [Bool.false_eq_true, if_false]
      exact .throw _
  | true =>
      simp only [if_true]
      refine (save ?_).imp_after ?_
      · rintro s ⟨rfl, holds⟩
        exact related _ holds known
      · rintro _ s' ⟨rfl, s, rfl, holds⟩
        exact ⟨_, holds, known, rfl⟩

/-! ### Loops over several memos -/

/-- A sweep: `P` is about the memos left to treat and what is stored when it is their turn. A
memo that fails ends the sweep, so what it leaves behind need not meet `P`. -/
theorem sweepFrom {P : List Memo → Collection → Prop} {treat : Memo → Action Unit}
    (failed : MemoId → Nat → Fault → Occurrence)
    (each : ∀ m rest, Saves c R (P (m :: rest)) (treat m) (fun _ => P rest)) (done : Nat)
    (memos : List Memo) :
    Saves c R (P memos) (Service.sweepFrom failed treat done memos) (fun _ => P []) := by
  induction memos generalizing done with
  | nil => exact .pure fun _ holds => holds
  | cons m rest ih =>
      refine after_quiet .ensureActive fun _ => bind (Q := fun _ => P rest) ?_ fun _ => ih _
      exact (each m rest).tryCatch fun fault => after_quiet (.note _) fun _ => .throw _

/-- A page of a rebuild. What a memo that fails leaves behind has to meet `P` all the same. -/
theorem rebuildPage (stable : ∀ s s', P s → R s s' → P s') (page : List Memo)
    (each : ∀ m ∈ page, Saves c R P (Service.rebuildMemo m) (fun _ => P))
    (report : Service.RebuildReport) :
    Saves c R P (Service.rebuildPage report page) (fun _ => P) := by
  have kept : ∀ s', (∃ s, P s ∧ Relation.ReflTransGen R s s') → P s' := by
    rintro s' ⟨s, holds, reached⟩
    induction reached with
    | refl => exact holds
    | tail _ related ih => exact stable _ _ ih related
  induction page generalizing report with
  | nil => exact .pure fun _ holds => holds
  | cons m rest ih =>
      refine after_quiet .ensureActive fun _ => bind (Q := fun _ => P) ?_ fun _ => ?_
      · refine tryCatch ?_ fun fault => ?_
        · exact (each m (by simp)).bind fun _ => .pure fun _ holds => holds
        · exact after_quiet (.note _) fun _ => .pure fun s' reached => kept s' reached
      · exact ih (fun m' hm' => each m' (by simp [hm'])) _

/-- A rebuild, page by page. -/
theorem rebuildFrom (stable : ∀ s s', P s → R s s' → P s')
    (each : ∀ s, P s → ∀ m ∈ s, Saves c R P (Service.rebuildMemo m) (fun _ => P))
    (size pages offset : Nat) (report : Service.RebuildReport) :
    Saves c R P (Service.rebuildFrom size pages offset report) (fun _ => P) := by
  induction pages generalizing offset report with
  | zero => exact .pure fun _ holds => holds
  | succ pages ih =>
      refine (list _).bind fun page => given fun s ⟨selected, holds⟩ => ?_
      have known : ∀ m ∈ page, m ∈ s := fun m hm =>
        (Query.mem_and_admits_of_mem_select (by rwa [selected] at hm)).1
      refine bind (Q := fun _ => P) ?_ fun _ => ?_
      · refine (rebuildPage stable page (fun m hm => ?_) report).imp_before fun _ h => h.2
        exact each s holds m (known m hm)
      · by_cases last : page.length < size
        · simp only [last, if_true]
          exact .pure fun _ holds => holds
        · simp only [last, if_false]
          exact ih _ _

end Saves

end Action

end TaggedMemos
