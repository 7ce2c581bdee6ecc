import TaggedMemos.Service.Request

/-!
# Outcomes of Actions

`Action.outcome` runs an action from a given progress. This module computes it for the ways of
putting actions together and for the actions that everything else is put together from, so that
what a request does can be read off its steps in order.

## Main results

* `outcome_bind`, `outcome_tryCatch`: the outcome of a composition is that of its parts.
* `outcome_load`, `outcome_clock`, `outcome_save`, `outcome_parse`, `outcome_ensureActive`: the only
  five steps whose outcome depends on the circumstances or on the progress.
-/

namespace TaggedMemos

/-- The number of saves that a request has tried. -/
def Progress.tries (p : Progress) : Nat :=
  p.saved.length + p.refused

namespace Action

variable {α β ε ε' : Type} {c : Circumstances} {p : Progress}

/-! ### Faults in place of other errors -/

@[simp] theorem mapError_ok (f : ε → ε') (a : α) :
    (.ok a : Except ε α).mapError f = .ok a := rfl

@[simp] theorem mapError_error (f : ε → ε') (e : ε) :
    (.error e : Except ε α).mapError f = .error (f e) := rfl

/-- Another error does not change a success. -/
theorem mapError_eq_ok {f : ε → ε'} {x : Except ε α} {a : α} :
    x.mapError f = .ok a ↔ x = .ok a := by
  cases x with
  | error e => simp
  | ok b => simp

/-! ### Composition -/

@[simp] theorem outcome_pure (a : α) : (pure a : Action α).outcome c p = (.ok a, p) := rfl

@[simp] theorem outcome_throw (fault : Fault) :
    (throw fault : Action α).outcome c p = (.error fault, p) := rfl

/-- A composition goes on with the value of its first part, and ends where that part fails. -/
theorem outcome_bind (x : Action α) (f : α → Action β) :
    (x >>= f).outcome c p =
      match x.outcome c p with
      | (.ok a, q) => (f a).outcome c q
      | (.error fault, q) => (.error fault, q) := by
  rcases h : x.outcome c p with ⟨_ | _, q⟩
  · simp only [outcome, bind, ReaderT.bind, ReaderT.run, ExceptT.bind, ExceptT.run, ExceptT.mk,
      StateT.bind, StateT.run] at h ⊢
    rw [h]
    rfl
  · simp only [outcome, bind, ReaderT.bind, ReaderT.run, ExceptT.bind, ExceptT.run, ExceptT.mk,
      StateT.bind, StateT.run] at h ⊢
    rw [h]
    rfl

/-- A composition goes on where its first part succeeds. -/
theorem outcome_bind_of_ok {x : Action α} {f : α → Action β} {a : α} {q : Progress}
    (first : x.outcome c p = (.ok a, q)) : (x >>= f).outcome c p = (f a).outcome c q := by
  rw [outcome_bind, first]

/-- A fault that is caught leaves the progress where it arose. -/
theorem outcome_tryCatch (x : Action α) (handle : Fault → Action α) :
    (tryCatch x handle).outcome c p =
      match x.outcome c p with
      | (.ok a, q) => (.ok a, q)
      | (.error fault, q) => (handle fault).outcome c q := by
  rcases h : x.outcome c p with ⟨_ | _, q⟩
  · simp only [outcome, tryCatch, tryCatchThe, MonadExceptOf.tryCatch, ReaderT.run,
      ExceptT.tryCatch, ExceptT.run, ExceptT.mk, bind, StateT.bind, StateT.run] at h ⊢
    rw [h]
  · simp only [outcome, tryCatch, tryCatchThe, MonadExceptOf.tryCatch, ReaderT.run,
      ExceptT.tryCatch, ExceptT.run, ExceptT.mk, bind, StateT.bind, StateT.run] at h ⊢
    rw [h]
    rfl

@[simp] theorem outcome_get : (get : Action Progress).outcome c p = (.ok p, p) := rfl

@[simp] theorem outcome_set (q : Progress) :
    (set q : Action PUnit).outcome c p = (.ok ⟨⟩, q) := rfl

@[simp] theorem outcome_read : (read : Action Circumstances).outcome c p = (.ok c, p) := rfl

/-! ### Steps -/

/-- What is noted is put in front of the log. -/
@[simp] theorem outcome_note (occurrence : Occurrence) :
    (note occurrence).outcome c p = (.ok (), { p with log := occurrence :: p.log }) := rfl

@[simp] theorem outcome_reject (complaint : Complaint) :
    (reject complaint : Action α).outcome c p = (.error (.invalidArgument complaint), p) := rfl

/-- What is loaded is what is stored at the moment. -/
@[simp] theorem outcome_load : load.outcome c p = (p.current, p) := by
  cases h : p.current <;> simp [load, outcome_bind, h]

/-- The clock goes by the saves tried. -/
@[simp] theorem outcome_clock : clock.outcome c p = (.ok (c.now p.tries), p) := rfl

/-- A save is refused as the circumstances say, or adds a collection to those saved. -/
theorem outcome_save (memos : Collection) :
    (save memos).outcome c p =
      match c.saveFault (p.saved.length + p.refused) with
      | some fault => (.error fault, { p with refused := p.refused + 1 })
      | none => (.ok (), { p with saved := memos :: p.saved }) := by
  cases h : c.saveFault (p.saved.length + p.refused) <;> simp [save, outcome_bind, h]

/-- Reading a text is counted, whether the text is accepted or not. -/
theorem outcome_parse (content : String) :
    (parse content).outcome c p =
      ((c.parser p.reads content).mapError Fault.parse, { p with reads := p.reads + 1 }) := by
  cases h : c.parser p.reads content <;> simp [parse, outcome_bind, h]

/-- A request ends here exactly if the caller has given up. -/
theorem outcome_ensureActive :
    ensureActive.outcome c p =
      (if c.cancelled p.saved.length then .error .cancelled else .ok (), p) := by
  cases h : c.cancelled p.saved.length <;> simp [ensureActive, outcome_bind, h]

/-- A path that a caller typed is validated, and nothing else happens. -/
theorem outcome_requirePath (input field : String) :
    (requirePath input field).outcome c p =
      ((TagPath.validate input).mapError fun reason =>
        .invalidArgument (.badPath field reason), p) := by
  cases h : TagPath.validate input <;> simp [requirePath, h]

/-- An input that is accepted gives its path, and changes nothing. -/
theorem outcome_requirePath_of_ok {input field path : String}
    (accepted : TagPath.validate input = .ok path) :
    (requirePath input field).outcome c p = (.ok path, p) := by
  rw [outcome_requirePath, accepted, mapError_ok]

end Action

end TaggedMemos
