import TaggedMemos.Forest.OfMarkdown
import TaggedMemos.Forest.Payload
import TaggedMemos.Forest.Writing
import TaggedMemos.Memo.Collection
import TaggedMemos.Service.Log
import TaggedMemos.Service.Settings

/-!
# Actions

A request is an action: it is carried out under given circumstances, moves through a progress and
ends in an answer or a fault. Everything that can go wrong from outside is part of the
circumstances: which saves the medium refuses, which texts the parser rejects, and after how many
saves the caller gives up. The progress keeps every collection that was saved, so a statement
about all states of a store is a statement about one list.

A fault does not undo what was saved before it.
-/

namespace TaggedMemos

/-- What reads the text of a memo, given how many texts the request has read before. -/
abbrev Parser := Nat → String → Except ParseError Forest

namespace Parser

/-- A parser that does not depend on what was read before. -/
def always (parse : String → Except ParseError Forest) : Parser :=
  fun _ => parse

/-- The parser of markdown. -/
def markdown : Parser :=
  always Forest.ofMarkdown

/-- A parser that works `n` times, and then reports as many open constructs as the text has
bytes. -/
def failingAfter (n : Nat) (parser : Parser) : Parser :=
  fun reads text => if reads < n then parser reads text else .error (.unclosed text.utf8ByteSize)

end Parser

/-- What a request depends on besides the collection stored. -/
structure Circumstances where
  /-- The caller. -/
  user : UserId
  /-- The settings. -/
  settings : Settings := {}
  /-- What reads the text of a memo. -/
  parser : Parser := .markdown
  /-- What writes the forest of a memo. -/
  writer : Forest → Option String := fun nodes => some nodes.toMarkdown
  /-- Why the medium refuses a save, if it does, given how many saves were tried before. -/
  saveFault : Nat → Option Fault := fun _ => none
  /-- Whether the caller has given up, given how many saves there were. What is stored stays the
  same between two saves, so it does not matter where between them the caller gives up. -/
  cancelled : Nat → Bool := fun _ => false
  /-- The identifier of a new memo. -/
  freshId : MemoId
  /-- The time, given how many saves were tried before. -/
  now : Nat → Timestamp

/-- How far a request has come. -/
structure Progress where
  /-- What the medium held when the request began. -/
  stored : Except Fault Collection
  /-- The collections saved since, the last one first. -/
  saved : List Collection := []
  /-- The number of saves that the medium refused. -/
  refused : Nat := 0
  /-- The number of texts read. -/
  reads : Nat := 0
  /-- What happened, the last occurrence first. -/
  log : List Occurrence := []

/-- What the medium holds. -/
def Progress.current (p : Progress) : Except Fault Collection :=
  match p.saved with
  | memos :: _ => .ok memos
  | [] => p.stored

/-- A computation on a store. -/
abbrev Action := ReaderT Circumstances (ExceptT Fault (StateM Progress))

/-- What comes out of an action, and how far it came. -/
def Action.outcome (action : Action α) (c : Circumstances) (p : Progress) :
    Except Fault α × Progress :=
  (action.run c).run.run p

namespace Action

/-- What the clock shows. -/
def clock : Action Timestamp := do
  let p ← get
  return (← read).now (p.saved.length + p.refused)

/-- The collection stored. -/
def load : Action Collection := do
  match (← get).current with
  | .ok memos => return memos
  | .error fault => throw fault

/-- Stores a collection in place of the one stored. -/
def save (memos : Collection) : Action Unit := do
  let p ← get
  match (← read).saveFault (p.saved.length + p.refused) with
  | some fault =>
    set { p with refused := p.refused + 1 }
    throw fault
  | none => set { p with saved := memos :: p.saved }

/-- The forest of a text. -/
def parse (content : String) : Action Forest := do
  let p ← get
  set { p with reads := p.reads + 1 }
  match (← read).parser p.reads content with
  | .ok nodes => return nodes
  | .error reason => throw (.parse reason)

/-- The text of a forest. -/
def write (nodes : Forest) : Action String := do
  match (← read).writer nodes with
  | some content => return content
  | none => throw .restore

/-- The payload that belongs to a text. -/
def payloadOf (content : String) : Action Payload := do
  return (← parse content).payload

/-- Leaves a record. -/
def note (occurrence : Occurrence) : Action Unit :=
  modify fun p => { p with log := occurrence :: p.log }

/-- Ends here if the caller has given up. -/
def ensureActive : Action Unit := do
  if (← read).cancelled (← get).saved.length then throw .cancelled

/-- Ends here because of an argument. -/
def reject (complaint : Complaint) : Action α :=
  throw (.invalidArgument complaint)

/-- The canonical form of a path given in some field of a request. -/
def requirePath (input field : String) : Action String :=
  match TagPath.validate input with
  | .ok path => return path
  | .error reason => reject (.badPath field reason)

end Action

end TaggedMemos
