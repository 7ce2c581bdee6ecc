import Mathlib.Data.List.Chain
import TaggedMemos.Proofs.Saves

/-!
# Histories of a Store

A history is a list of calls, each with its circumstances. Whatever can go wrong is part of the
circumstances, so a history may have failing saves, failing reads and callers that give up at any
point, differently for every call. `states` lists every collection that the store holds on the
way, those between the saves of one call included.

## Main results

* `Call.after_of_ok`: what a call that succeeds leaves behind.
* `states_induction`: what each call preserves from save to save holds in every state.
* `states_isChain`: two states in a row are the same or a save apart.
-/

namespace TaggedMemos

/-- A request with the circumstances it is carried out under. -/
structure Call where
  /-- The circumstances. -/
  circumstances : Circumstances
  /-- The request. -/
  request : Request

/-- What comes out of a call on a store that holds `memos`, and how far it came. -/
def Call.outcome (call : Call) (memos : Collection) : Except Fault Answer × Progress :=
  call.request.perform.outcome call.circumstances { stored := .ok memos }

/-- The collections that a call saves, the last one first. -/
def Call.saved (call : Call) (memos : Collection) : List Collection :=
  (call.outcome memos).2.saved

/-- The collection that a call leaves behind. -/
def Call.after (call : Call) (memos : Collection) : Collection :=
  (call.saved memos).headD memos

/-- Every collection that a store holds in the course of a history, from `memos` on. -/
def states (memos : Collection) : List Call → List Collection
  | [] => [memos]
  | call :: calls => memos :: (call.saved memos).reverse ++ states (call.after memos) calls

section Saves

variable {R : Collection → Collection → Prop} {P : Collection → Prop}
variable {Q : Answer → Collection → Prop} {call : Call} {memos : Collection}

/-- The saves of a call are related as those of its action are. -/
theorem Call.linked_saved
    (saves : Action.Saves call.circumstances R P call.request.perform Q) (holds : P memos) :
    Linked R memos (call.saved memos) := by
  obtain ⟨trail, saved, -, linked, -⟩ := saves { stored := .ok memos } memos rfl holds
  have same : call.saved memos = trail := by
    simpa [Call.saved, Call.outcome] using saved
  rw [same]
  exact linked

/-- A call that succeeds leaves behind what its action does. -/
theorem Call.after_of_ok {answer : Answer}
    (saves : Action.Saves call.circumstances R P call.request.perform Q) (holds : P memos)
    (succeeded : (call.outcome memos).1 = .ok answer) : Q answer (call.after memos) := by
  obtain ⟨trail, saved, -, -, value⟩ := saves { stored := .ok memos } memos rfl holds
  have same : call.saved memos = trail := by
    simpa [Call.saved, Call.outcome] using saved
  rw [Call.after, same]
  exact value answer succeeded

/-- A call leaves behind what was stored before, or one of its saves. -/
theorem Call.after_of_saved {I : Collection → Prop} (initial : I memos)
    (during : ∀ s ∈ call.saved memos, I s) : I (call.after memos) := by
  rw [Call.after]
  cases trail : call.saved memos with
  | nil => exact initial
  | cons last _ => exact during last (by simp [trail])

end Saves

/-- **Induction over a history.** An invariant that no save of any call breaks holds in every
state. The induction is on the calls, and within a call on its saves. -/
theorem states_induction {I : Collection → Prop} {calls : List Call} {memos : Collection}
    (saves : ∀ call ∈ calls, ∀ s, I s → ∀ s' ∈ call.saved s, I s') (initial : I memos) :
    ∀ s ∈ states memos calls, I s := by
  induction calls generalizing memos with
  | nil => simpa [states] using initial
  | cons call calls ih =>
      have during := saves call (by simp) memos initial
      have final : I (call.after memos) := Call.after_of_saved initial during
      intro s hs
      rw [states, List.mem_append, List.mem_cons, List.mem_reverse] at hs
      rcases hs with (rfl | hs) | hs
      · exact initial
      · exact during s hs
      · exact ih (fun call' hc => saves call' (by simp [hc])) final s hs

/-! ### States in a row -/

/-- Saves that are related make a chain that begins with the collection before them. -/
theorem Linked.isChain {R : Collection → Collection → Prop} {memos : Collection}
    {trail : List Collection} (linked : Linked R memos trail) :
    (memos :: trail.reverse).IsChain R ∧
      (memos :: trail.reverse).getLast? = some (trail.headD memos) := by
  induction trail with
  | nil => exact ⟨.singleton _, rfl⟩
  | cons next earlier ih =>
      obtain ⟨chain, last⟩ := ih linked.2
      rw [List.reverse_cons, ← List.cons_append]
      refine ⟨chain.append (.singleton _) ?_, List.getLast?_concat⟩
      intro before known after new
      obtain rfl : earlier.headD memos = before := Option.some.inj (last.symm.trans known)
      obtain rfl : next = after := Option.some.inj new
      exact linked.1

/-- Every history begins with the collection it is about. -/
theorem head?_states (memos : Collection) (calls : List Call) :
    (states memos calls).head? = some memos := by
  cases calls with
  | nil => rfl
  | cons _ _ => rfl

/-- Two states of a history in a row are the same, between two calls, or a save of a call apart. -/
theorem states_isChain {R : Call → Collection → Collection → Prop} {calls : List Call}
    {memos : Collection}
    (linked : ∀ call ∈ calls, ∀ s ∈ states memos calls, Linked (R call) s (call.saved s)) :
    (states memos calls).IsChain fun s s' => s' = s ∨ ∃ call ∈ calls, R call s s' := by
  induction calls generalizing memos with
  | nil => exact .singleton _
  | cons call calls ih =>
      obtain ⟨during, last⟩ := (linked call (by simp) memos (by simp [states])).isChain
      have linked' : ∀ call' ∈ calls, ∀ s ∈ states (call.after memos) calls,
          Linked (R call') s (call'.saved s) :=
        fun call' hc s hs => linked call' (by simp [hc]) s (by simp [states, hs])
      rw [states]
      refine .append (during.imp fun s s' related => .inr ⟨call, by simp, related⟩)
        ((ih linked').imp fun s s' => Or.imp_right fun ⟨call', hc, related⟩ =>
          ⟨call', by simp [hc], related⟩) ?_
      intro before known after new
      rw [head?_states] at new
      obtain rfl : call.after memos = after := Option.some.inj new
      exact .inl (Option.some.inj (last.symm.trans known))

end TaggedMemos
