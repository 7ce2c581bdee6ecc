import Mathlib.Data.List.Nodup
import TaggedMemos.Proofs.Collection
import TaggedMemos.Proofs.Rewriting
import TaggedMemos.Proofs.Saves

/-!
# The Course of a Sweep

A sweep lists the memos that it is about before it treats the first of them, and the store is
loaded again for every save. That comes to the same as treating all of them in the store listed:
with distinct identifiers a treatment changes no other memo that was listed, and it removes none,
since comments are not listed. So the store always holds the collection from before with some first
memos treated, and how far a sweep comes is told by the memos listed alone.

## Main results

* `Treatment.course`: how far a sweep comes, and why it stops.
* `Treatment.course_stops`: a sweep goes through some first memos, and stops at the first one that
  something is in the way of.
* `Treatment.comesTo_sweep`: the outcome of a sweep is told by its course.
-/

namespace TaggedMemos

/-! ### Treatments -/

/-- What a sweep does to each memo. -/
inductive Treatment where
  /-- The text is edited, and read again. -/
  | rewrite (edit : String → String)
  /-- The memo is deleted together with the comments on it. -/
  | delete
  /-- Nothing is done. -/
  | spare

namespace Treatment

/-- What is done to one memo. -/
def act : Treatment → Memo → Action Unit
  | rewrite edit, m => Store.replaceContent m.id (edit m.content)
  | delete, m => Store.delete m.id
  | spare, _ => return ()

/-- The number of saves for some number of memos. -/
def saves : Treatment → Nat → Nat
  | spare, _ => 0
  | _, n => n

/-- Why a memo cannot be treated when `done` memos were treated before it: its edited text is not
accepted, or the medium refuses to save. -/
def obstacle (t : Treatment) (c : Circumstances) (done : Nat) (m : Memo) : Option Fault :=
  match t with
  | rewrite edit =>
    match c.parser done (edit m.content) with
    | .ok _ => c.saveFault done
    | .error reason => some (.parse reason)
  | delete => c.saveFault done
  | spare => none

/-- A collection with some of its memos treated, in the order given: the texts are read, and the
saves are made, one after the other. Every other memo is as it was, but for the comments on memos
deleted. -/
def applyTo (t : Treatment) (c : Circumstances) (done : List Memo) (memos : Collection) :
    Collection :=
  match t with
  | rewrite edit => memos.map fun m =>
      if m ∈ done then m.rewritten (c.parser (done.idxOf m)) edit (c.now (done.idxOf m)) else m
  | delete => memos.filter fun m => m ∉ done ∧ ∀ m' ∈ done, m.parent ≠ some m'.id
  | spare => memos

/-- The memos that a sweep treats out of those left, `done` of them being treated before, and the
fault that stops it before the end, if there is one. -/
def course (t : Treatment) (c : Circumstances) : Nat → List Memo → List Memo × Option Fault
  | _, [] => ([], none)
  | done, m :: rest =>
    if c.cancelled (t.saves done) then ([], some .cancelled)
    else match t.obstacle c done m with
      | some cause => ([], some (.memoWrite m.id cause))
      | none =>
        let later := course t c (done + 1) rest
        (m :: later.1, later.2)

/-- What a sweep comes to with some memos left, `done` of them being treated before: the fault that
stops it, or none if it is finished. -/
inductive Stops (t : Treatment) (c : Circumstances) (done : Nat) :
    List Memo → Option Fault → Prop
  /-- No memo is left. -/
  | finished : Stops t c done [] none
  /-- The caller has given up. -/
  | cancelled {m : Memo} {rest : List Memo} (gaveUp : c.cancelled (t.saves done) = true) :
      Stops t c done (m :: rest) (some .cancelled)
  /-- The next memo cannot be treated. -/
  | failed {m : Memo} {rest : List Memo} {cause : Fault}
      (active : c.cancelled (t.saves done) = false) (stuck : t.obstacle c done m = some cause) :
      Stops t c done (m :: rest) (some (.memoWrite m.id cause))

/-- **The course of a sweep.** It goes through some first memos, none of which anything is in the
way of, and stops before the others. -/
theorem course_stops (t : Treatment) (c : Circumstances) (done : Nat) (memos : List Memo) :
    ∃ rest, memos = (t.course c done memos).1 ++ rest ∧
      (∀ n m, (t.course c done memos).1[n]? = some m →
        c.cancelled (t.saves (done + n)) = false ∧ t.obstacle c (done + n) m = none) ∧
      t.Stops c (done + (t.course c done memos).1.length) rest (t.course c done memos).2 := by
  induction memos generalizing done with
  | nil => exact ⟨[], rfl, by simp [course], .finished⟩
  | cons m memos ih =>
      cases cancelled : c.cancelled (t.saves done) with
      | true =>
          simp only [course, cancelled, if_true]
          exact ⟨m :: memos, rfl, by simp, .cancelled cancelled⟩
      | false =>
          cases stuck : t.obstacle c done m with
          | some cause =>
              simp only [course, cancelled, stuck, Bool.false_eq_true, if_false]
              exact ⟨m :: memos, rfl, by simp, .failed cancelled stuck⟩
          | none =>
              simp only [course, cancelled, stuck, Bool.false_eq_true, if_false]
              obtain ⟨rest, split, free, stops⟩ := ih (done + 1)
              refine ⟨rest, congrArg (m :: ·) split, fun n x reached => ?_, ?_⟩
              · cases n with
                | zero =>
                    obtain rfl : m = x := Option.some.inj reached
                    exact ⟨cancelled, stuck⟩
                | succ n =>
                    rw [← Nat.add_assoc, Nat.add_right_comm]
                    exact free n x reached
              · rw [List.length_cons, ← Nat.add_assoc, Nat.add_right_comm]
                exact stops

/-- Where nothing is ever in the way, a sweep goes through all memos. -/
theorem course_of_free {t : Treatment} {c : Circumstances} (active : ∀ n, c.cancelled n = false)
    (free : ∀ n m, t.obstacle c n m = none) (done : Nat) (memos : List Memo) :
    t.course c done memos = (memos, none) := by
  induction memos generalizing done with
  | nil => rfl
  | cons m memos ih => simp [course, active, free, ih]

/-! ### One more memo -/

section

variable {t : Treatment} {c : Circumstances} {memos : Collection} {done : List Memo} {m : Memo}

/-- A treatment of no memos changes none. -/
theorem applyTo_nil : t.applyTo c [] memos = memos := by
  cases t with
  | rewrite edit => simp [applyTo]
  | delete => simp [applyTo]
  | spare => rfl

/-- A memo that is listed and not treated yet is still stored under its identifier. -/
theorem hasId_applyTo (member : m ∈ memos) (due : m ∉ done) (topLevel : m.parent = none) :
    (t.applyTo c done memos).hasId m.id = true := by
  have stays : m ∈ t.applyTo c done memos := by
    cases t with
    | rewrite edit => exact List.mem_map.mpr ⟨m, member, if_neg due⟩
    | delete => exact List.mem_filter.mpr ⟨member, by simp [due, topLevel]⟩
    | spare => exact member
  exact Collection.hasId_iff.mpr (List.mem_map_of_mem stays)

/-- Rewriting one more memo. -/
theorem modify_applyTo {edit : String → String} {nodes : Forest}
    (distinct : (Collection.ids memos).Nodup) (member : m ∈ memos) (due : m ∉ done)
    (read : c.parser done.length (edit m.content) = .ok nodes) :
    ((rewrite edit).applyTo c done memos).modify m.id
        (Change.apply { content := some (edit m.content), payload := some nodes.payload }
          (c.now done.length)) =
      (rewrite edit).applyTo c (done ++ [m]) memos := by
  have sameIds : Collection.ids ((rewrite edit).applyTo c done memos) = Collection.ids memos := by
    rw [Collection.ids, applyTo, List.map_map, Collection.ids]
    refine List.map_congr_left fun x _ => ?_
    simp only [Function.comp_apply]
    split <;> rfl
  rw [Collection.modify_eq_map (by rwa [sameIds]), applyTo, applyTo, List.map_map]
  refine List.map_congr_left fun x member' => ?_
  -- The memo has its own place among those treated, so each text keeps the reading it was given.
  by_cases same : x = m
  · subst same
    simp [due, List.idxOf_append_of_notMem due, Change.apply, Memo.rewritten, payloadBy, read,
      Except.toOption]
  · have other : x.id ≠ m.id := fun named =>
      same ((Collection.id_eq_iff distinct member' member).mp named)
    by_cases earlier : x ∈ done
    · simp [earlier, other, List.idxOf_append_of_mem earlier, Memo.rewritten]
    · simp [earlier, other, same]

/-- Deleting one more memo. -/
theorem without_applyTo (distinct : (Collection.ids memos).Nodup) (member : m ∈ memos) :
    (delete.applyTo c done memos).without m.id = delete.applyTo c (done ++ [m]) memos := by
  rw [Collection.without, applyTo, applyTo, List.filter_filter]
  refine List.filter_congr fun x member' => ?_
  have named : x.id = m.id ↔ x = m := Collection.id_eq_iff distinct member' member
  rw [Bool.eq_iff_iff]
  simp only [Bool.and_eq_true, bne_iff_ne, ne_eq, decide_eq_true_iff, List.mem_append,
    List.mem_singleton, not_or, or_imp, forall_and, forall_eq, named]
  exact ⟨fun h => ⟨⟨h.2.1, h.1.1⟩, h.2.2, h.1.2⟩, fun h => ⟨⟨h.1.2, h.2.2⟩, h.1.1, h.2.1⟩⟩

end

/-! ### The outcome of a sweep -/

/-- A sweep of a store that held `memos` has come so far that the memos `done` are treated. -/
structure Reached (t : Treatment) (c : Circumstances) (memos : Collection) (done : List Memo)
    (p : Progress) : Prop where
  /-- What the medium held when the sweep began. -/
  stored : p.stored = .ok memos
  /-- What it holds now. -/
  current : p.current = .ok (t.applyTo c done memos)
  /-- Each treatment was saved. -/
  saved : p.saved.length = t.saves done.length
  /-- No save was refused. -/
  refused : p.refused = 0
  /-- Each text edited was read once. -/
  reads : ∀ edit, t = rewrite edit → p.reads = done.length

/-- What an action gives that ends with a fault, or without one. -/
def ending : Option Fault → Except Fault Unit
  | none => .ok ()
  | some fault => .error fault

section

open TaggedMemos.Action Service

variable {t : Treatment} {c : Circumstances} {memos : Collection} {done : List Memo} {m : Memo}
variable {p : Progress}

/-- A change of a memo that is stored comes to one save. -/
theorem outcome_update {id : MemoId} {change : Change} (current : p.current = .ok memos)
    (known : memos.hasId id = true) :
    (Store.update id change).outcome c p =
      (save (memos.modify id (change.apply (c.now p.tries)))).outcome c p := by
  simp [Store.update, outcome_bind, current, known]

/-- A removal of a memo that is stored comes to one save. -/
theorem outcome_delete {id : MemoId} (current : p.current = .ok memos)
    (known : memos.hasId id = true) :
    (Store.delete id).outcome c p = (save (memos.without id)).outcome c p := by
  simp [Store.delete, outcome_bind, current, known]

/-- A save that goes on from where `n` saves were made is refused as the circumstances say. -/
theorem outcome_save_at {n : Nat} (saved : p.saved.length = n) (refused : p.refused = 0)
    (memos : Collection) :
    ∃ q, (save memos).outcome c p = (ending (c.saveFault n), q) ∧ q.stored = p.stored ∧
      q.reads = p.reads ∧
      (c.saveFault n = none → q.saved = memos :: p.saved ∧ q.refused = 0) ∧
      (c.saveFault n ≠ none → q.saved = p.saved) := by
  rw [outcome_save, saved, refused, Nat.add_zero]
  cases c.saveFault n with
  | none => exact ⟨_, rfl, rfl, rfl, fun _ => ⟨rfl, rfl⟩, fun blocked => absurd rfl blocked⟩
  | some fault => exact ⟨_, rfl, rfl, rfl, fun free => absurd free (by simp), fun _ => rfl⟩

/-- The treatment of one memo ends with the obstacle in its way, and then what is stored stays. If
there is none, then the sweep comes one memo further. -/
theorem outcome_act (reached : t.Reached c memos done p)
    (distinct : (Collection.ids memos).Nodup) (member : m ∈ memos) (due : m ∉ done)
    (topLevel : m.parent = none) :
    ∃ q, (t.act m).outcome c p = (ending (t.obstacle c done.length m), q) ∧
      (t.obstacle c done.length m = none → t.Reached c memos (done ++ [m]) q) ∧
      (t.obstacle c done.length m ≠ none → q.stored = p.stored ∧ q.saved = p.saved) := by
  have known : (t.applyTo c done memos).hasId m.id = true := hasId_applyTo member due topLevel
  have current := reached.current
  cases t with
  | rewrite edit =>
      have reads := reached.reads edit rfl
      cases parsed : c.parser done.length (edit m.content) with
      | error reason =>
          refine ⟨{ p with reads := p.reads + 1 }, ?_, ?_, fun _ => ⟨rfl, rfl⟩⟩
          · simp [act, obstacle, Store.replaceContent, payloadOf, outcome_bind, outcome_parse,
              reads, parsed, ending]
          · simp [obstacle, parsed]
      | ok nodes =>
          have same : obstacle (rewrite edit) c done.length m = c.saveFault done.length := by
            simp [obstacle, parsed]
          obtain ⟨q, saved, stored, readsAfter, free, blocked⟩ :=
            outcome_save_at (c := c) (p := { p with reads := p.reads + 1 }) (n := done.length)
              reached.saved reached.refused ((rewrite edit).applyTo c (done ++ [m]) memos)
          rw [same]
          refine ⟨q, ?_, fun none => ?_, fun some => ⟨stored, blocked some⟩⟩
          · have tries : Progress.tries { p with reads := p.reads + 1 } = done.length :=
              (congrArg (p.saved.length + ·) reached.refused).trans reached.saved
            rw [← saved, ← modify_applyTo distinct member due parsed, ← tries]
            rw [← outcome_update (p := { p with reads := p.reads + 1 }) current known]
            simp [act, Store.replaceContent, payloadOf, outcome_bind, outcome_parse, reads, parsed]
          · obtain ⟨saved, refused⟩ := free none
            refine ⟨stored.trans reached.stored, ?_, ?_, refused, fun _ _ => ?_⟩
            · rw [Progress.current, saved]
            · simp [saved, reached.saved, saves]
            · simp [readsAfter, reads]
  | delete =>
      obtain ⟨q, saved, stored, -, free, blocked⟩ := outcome_save_at (c := c) (n := done.length)
        reached.saved reached.refused (delete.applyTo c (done ++ [m]) memos)
      refine ⟨q, ?_, fun none => ?_, fun some => ⟨stored, blocked some⟩⟩
      · rw [act, outcome_delete current known, without_applyTo distinct member]
        exact saved
      · obtain ⟨saved, refused⟩ := free none
        refine ⟨stored.trans reached.stored, ?_, ?_, refused, fun _ same => by cases same⟩
        · rw [Progress.current, saved]
        · simp [saved, reached.saved, saves]
  | spare =>
      exact ⟨p, rfl, fun _ => ⟨reached.stored, current, reached.saved, reached.refused,
        fun _ same => by cases same⟩, fun blocked => absurd rfl blocked⟩

/-- A sweep that has come so far ends as the course of the memos left does, and those that the
course goes through are treated in the store. -/
theorem outcome_sweepFrom {rest : List Memo} (reached : t.Reached c memos done p)
    (distinct : (Collection.ids memos).Nodup) (once : (done ++ rest).Nodup)
    (listed : ∀ m ∈ rest, m ∈ memos ∧ m.parent = none)
    (failed : MemoId → Nat → Fault → Occurrence) (n : Nat) :
    ∃ q, (sweepFrom failed t.act n rest).outcome c p =
        (ending (t.course c done.length rest).2, q) ∧
      q.stored = .ok memos ∧
      q.current = .ok (t.applyTo c (done ++ (t.course c done.length rest).1) memos) ∧
      q.saved.length = t.saves (done.length + (t.course c done.length rest).1.length) := by
  -- The induction is on the memos left: the first of them moves over to those treated.
  induction rest generalizing done p n with
  | nil => exact ⟨p, rfl, reached.stored, by simpa [course] using reached.current, reached.saved⟩
  | cons m rest ih =>
      obtain ⟨member, topLevel⟩ := listed m (by simp)
      have due : m ∉ done := fun early => (List.nodup_append.mp once).2.2 m early m (by simp) rfl
      rw [sweepFrom, outcome_bind, outcome_ensureActive, reached.saved]
      cases cancelled : c.cancelled (t.saves done.length) with
      | true =>
          simp only [course, cancelled, if_true]
          refine ⟨p, rfl, reached.stored, by simpa using reached.current, reached.saved⟩
      | false =>
          obtain ⟨q, acted, further, stuck⟩ := outcome_act reached distinct member due topLevel
          simp only [Bool.false_eq_true, if_false, outcome_bind, outcome_tryCatch, acted]
          cases obstacle : t.obstacle c done.length m with
          | some cause =>
              -- The fault is noted and named, which leaves the store alone.
              obtain ⟨stored, saved⟩ := stuck (by simp [obstacle])
              simp only [course, cancelled, obstacle, ending, outcome_note, outcome_throw,
                Bool.false_eq_true, if_false]
              refine ⟨_, rfl, stored.trans reached.stored, ?_, ?_⟩
              · rw [List.append_nil, ← reached.current]
                simp only [Progress.current, saved, stored]
              · rw [saved, reached.saved]
                rfl
          | none =>
              simp only [course, cancelled, obstacle, ending, Bool.false_eq_true, if_false]
              have shift : done ++ [m] ++ rest = done ++ m :: rest := by simp
              obtain ⟨q', swept, stored, current, saved⟩ := ih (further obstacle)
                (shift ▸ once) (fun m' later => listed m' (List.mem_cons_of_mem _ later)) (n + 1)
              rw [List.length_append, List.length_singleton] at swept current saved
              refine ⟨q', swept, stored, ?_, ?_⟩
              · rw [current, List.append_assoc, List.singleton_append]
              · rw [saved, List.length_cons, Nat.add_assoc, Nat.add_comm 1]

end

/-! ### What a sweep comes to -/

/-- What a request over several memos comes to on a store that holds `memos`: the value if it treats
all the memos selected, or else the fault that stops it, and the store with the memos treated up to
there. -/
structure ComesTo {α : Type} (t : Treatment) (c : Circumstances) (memos : Collection)
    (selected : List Memo) (value : Except Fault α) (result : Except Fault α × Progress) :
    Prop where
  /-- What is given. -/
  value : result.1 = match (t.course c 0 selected).2 with
    | some fault => .error fault
    | none => value
  /-- What is left behind. -/
  after : result.2.saved.headD memos = t.applyTo c (t.course c 0 selected).1 memos
  /-- How many saves there are. -/
  saves : result.2.saved.length = t.saves (t.course c 0 selected).1.length

section

open TaggedMemos.Action Service

variable {α β : Type} {t : Treatment} {c : Circumstances} {memos : Collection}
variable {selected : List Memo} {p : Progress}

/-- **What a sweep comes to.** It gives the identifiers of the memos selected. -/
theorem comesTo_sweep (distinct : (Collection.ids memos).Nodup) (once : selected.Nodup)
    (listed : ∀ m ∈ selected, m ∈ memos ∧ m.parent = none)
    (failed : MemoId → Nat → Fault → Occurrence) :
    t.ComesTo c memos selected (.ok (selected.map (·.id)))
      ((sweep failed t.act selected).outcome c { stored := .ok memos }) := by
  have begun : t.Reached c memos [] { stored := .ok memos } :=
    ⟨rfl, by rw [applyTo_nil]; rfl, by cases t <;> rfl, rfl, fun _ _ => rfl⟩
  obtain ⟨q, swept, stored, current, saved⟩ :=
    outcome_sweepFrom begun distinct once listed failed 0
  have last : q.current = .ok (q.saved.headD memos) :=
    current_of_saved (p := { stored := .ok memos }) rfl stored (List.append_nil _).symm
  rw [List.length_nil] at swept current saved
  rw [sweep, outcome_bind, swept]
  refine ⟨?_, ?_, ?_⟩
  · cases (t.course c 0 selected).2 <;> rfl
  · rw [last] at current
    cases (t.course c 0 selected).2 <;> exact Except.ok.inj current
  · rw [Nat.zero_add] at saved
    cases (t.course c 0 selected).2 <;> exact saved

/-- What follows a sweep and saves nothing makes another value of the one that it gives. -/
theorem ComesTo.bind_quiet {value : α} {value' : β} {x : Action α} {f : α → Action β}
    (comes : t.ComesTo c memos selected (.ok value) (x.outcome c p)) (quiet : Quiet c (f value))
    (gives : ∀ q, ((f value).outcome c q).1 = .ok value') :
    t.ComesTo c memos selected (.ok value') ((x >>= f).outcome c p) := by
  obtain ⟨given, after, saves⟩ := comes
  rw [outcome_bind]
  rcases h : x.outcome c p with ⟨fault | a, q⟩
  · rw [h] at given after saves
    cases stop : (t.course c 0 selected).2 with
    | none => simp [stop] at given
    | some cause => exact ⟨by simpa [stop] using given, after, saves⟩
  · rw [h] at given after saves
    cases stop : (t.course c 0 selected).2 with
    | some cause => simp [stop] at given
    | none =>
        rw [stop] at given
        obtain rfl : a = value := Except.ok.inj given
        refine ⟨by rw [stop]; exact gives q, ?_, ?_⟩
        · rw [(quiet q).1]
          exact after
        · rw [(quiet q).1]
          exact saves

end

end Treatment

end TaggedMemos
