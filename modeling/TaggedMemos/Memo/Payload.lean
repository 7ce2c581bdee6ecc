/-!
# Payloads

What is recorded with a memo besides its text: the tags found in it and a few facts about it.
A payload is computed from the text and replaced as a whole whenever the text changes.
-/

namespace TaggedMemos

/-- Facts about the text of a memo. -/
structure Property where
  /-- Some link, or address in angle brackets, occurs. -/
  hasLink : Bool := false
  /-- Some task item occurs. -/
  hasTaskList : Bool := false
  /-- Some code block occurs. -/
  hasCode : Bool := false
  /-- Some task item that is not complete occurs. -/
  hasIncompleteTasks : Bool := false
  /-- The resources embedded, in order. -/
  references : List String := []
  deriving DecidableEq, Repr, Inhabited

/-- The tags and facts recorded with a memo. -/
structure Payload where
  /-- The canonical paths of the tags, in order of first occurrence. -/
  tags : List String := []
  /-- Facts about the text. -/
  property : Property := {}
  deriving DecidableEq, Repr, Inhabited

/-- Whether a path is among the tags. -/
def Payload.hasTag (payload : Payload) (path : String) : Bool :=
  payload.tags.contains path

end TaggedMemos
