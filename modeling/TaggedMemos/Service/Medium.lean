import TaggedMemos.Service.Action

/-!
# Media

What a store is kept on can refuse to save: because it is told to, because a number of saves that
it grants is used up, or because it cannot be reached. Between requests only its content and the
number of saves left change.
-/

namespace TaggedMemos

/-- What a store is kept on. -/
structure Medium where
  /-- The collection, or why it cannot be had. -/
  content : Except Fault Collection := .ok []
  /-- Whether every save is refused. -/
  refusing : Bool := false
  /-- The number of saves left, where it is limited. -/
  allowance : Option Nat := none
  /-- Why the medium cannot be reached for saving. -/
  blocked : Option String := none

namespace Medium

/-- Why a save is refused, if it is, given how many saves were tried before. The saves granted
come first, so a save is refused when as many were tried. -/
def saveFault (medium : Medium) (tried : Nat) : Option Fault :=
  match medium.blocked with
  | some reason => some (.io reason)
  | none =>
    if medium.refusing || medium.allowance.any (· ≤ tried) then some (.store .simulated) else none

/-- The medium as a request leaves it. -/
def after (medium : Medium) (p : Progress) : Medium :=
  { medium with
    content := p.current
    allowance := medium.allowance.map (· - p.saved.length) }

/-- What comes out of an action on a medium, and how far it came. The circumstances say nothing
about the medium. -/
def run (medium : Medium) (action : Action α) (c : Circumstances) : Except Fault α × Progress :=
  action.outcome { c with saveFault := medium.saveFault } { stored := medium.content }

end Medium

end TaggedMemos
