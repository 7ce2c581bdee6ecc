import TaggedMemos.Proofs.Lossless

/-!
# A Stack That May Be Empty

An assembly keeps the innermost open construct in a field of its own, so there is always one. Here
the open constructs are a list instead, of which this is not known. Each time the innermost one is
asked for, there may be none, and then assembly fails. What the failure would be is left open.

It is never seen. A stack that is not empty stays so in every step, since a stop is refused before
it takes the last construct away, and every step then does what the step of an assembly does. So
reading comes to the same on such a stack, whatever is answered where it is empty.

## Main results

* `FallibleAssembly.step_toFallible`: each event does the same on both.
* `FallibleAssembly.run_toFallible`: so does each list of events.
* `FallibleAssembly.read_eq_ofEvents`: reading comes to the same on both.
-/

namespace TaggedMemos

open Text

/-- A forest being assembled, with a list for the open constructs. -/
structure FallibleAssembly where
  /-- The text the events belong to. -/
  source : List Char
  /-- Everything before this offset is in the tree. -/
  cursor : Nat := 0
  /-- The open constructs, innermost first. -/
  stack : List Frame
  /-- The number of the next item of each open list, innermost first; none for bullets. -/
  counters : List (Option UInt64) := []

/-- A construct with its collected run of text scanned, if there is one. -/
def Frame.flush (source : List Char) (frame : Frame) : Frame :=
  match frame.pending with
  | none => frame
  | some run =>
    let escaped := charBefore? source run.start == some '\\'
    { frame with
      pending := none
      children := frame.children ++ (scanRun escaped (slice source run)).map Node.leaf }

/-- An assembly with its open constructs in one list. -/
def Assembly.toFallible (a : Assembly) : FallibleAssembly where
  source := a.source
  cursor := a.cursor
  stack := a.top :: a.below
  counters := a.counters

namespace FallibleAssembly

section

variable (missing : Nat → ParseError) (a : FallibleAssembly)

/-! ### Leaves -/

/-- The innermost open construct, or the answer that there is none. -/
def top : Except ParseError Frame :=
  match a.stack with
  | [] => .error (missing a.cursor)
  | frame :: _ => .ok frame

/-- Changes the innermost open construct. -/
def modifyTop (change : Frame → Frame) : Except ParseError FallibleAssembly :=
  match a.stack with
  | [] => .error (missing a.cursor)
  | frame :: frames => .ok { a with stack := change frame :: frames }

/-- Appends nodes to the innermost open construct. -/
def append (nodes : Forest) : Except ParseError FallibleAssembly :=
  a.modifyTop missing fun frame => { frame with children := frame.children ++ nodes }

/-- Scans the collected run of text, if there is one. -/
def flush : Except ParseError FallibleAssembly :=
  a.modifyTop missing (Frame.flush a.source)

/-- Records everything from the cursor up to `stop` as markup. -/
def markupUntil (stop : Nat) : Except ParseError FallibleAssembly :=
  if stop ≤ a.cursor then .ok a
  else do
    let markup := String.ofList (slice a.source ⟨a.cursor, stop⟩)
    let a ← a.flush missing
    let a ← a.append missing [.leaf (.markup markup)]
    return { a with cursor := stop }

/-- Adds a span to the collected run, or begins a new run when the two do not meet. -/
def addText (span : Span) : Except ParseError FallibleAssembly := do
  let a ← a.markupUntil missing span.start
  let start := max span.start a.cursor
  if span.stop ≤ start then
    return a
  else
    let frame ← a.top missing
    let a ←
      if frame.pending.any (·.stop == start) then
        a.modifyTop missing fun frame =>
          { frame with pending := frame.pending.map fun run => ⟨run.start, span.stop⟩ }
      else do
        let a ← a.flush missing
        a.modifyTop missing fun frame => { frame with pending := some ⟨start, span.stop⟩ }
    return { a with cursor := span.stop }

/-- Adds code to the open code block. -/
def addCode (text : String) (span : Span) : Except ParseError FallibleAssembly := do
  let a ← a.markupUntil missing span.start
  let a ← a.modifyTop missing fun frame =>
    match frame.kind with
    | .codeBlock language content =>
      { frame with kind := .codeBlock language (content ++ text.toList) }
    | _ => frame
  return { a with cursor := max a.cursor span.stop }

/-- The part of a span that is not in the tree yet. -/
def unread (span : Span) : String :=
  String.ofList (slice a.source ⟨max span.start a.cursor, span.stop⟩)

/-- Appends a leaf that stands for a span. -/
def addLeaf (leaf : Leaf) (span : Span) : Except ParseError FallibleAssembly := do
  let a ← a.markupUntil missing span.start
  let a ← a.flush missing
  let a ← a.append missing [.leaf leaf]
  return { a with cursor := max a.cursor span.stop }

/-! ### Containers -/

/-- Opens a construct at an offset. -/
def openFrame (opening : Opening) (start : Nat) : Except ParseError FallibleAssembly := do
  let numbered : Assembly := { source := a.source, counters := a.counters }
  let a ← a.markupUntil missing start
  let a ← a.flush missing
  return { a with
    counters := numbered.countersAfter opening
    stack := { kind := numbered.frameKind opening, start := max start a.cursor } :: a.stack }

/-- Closes the innermost construct at an offset. -/
def closeFrame (stop : Nat) : Except ParseError FallibleAssembly := do
  let a ← a.markupUntil missing stop
  let a ← a.flush missing
  if a.stack.length ≤ 1 then
    .error (.unbalancedStop stop)
  else
    let frame ← a.top missing
    let raw := String.ofList (slice a.source ⟨frame.start, max stop frame.start⟩)
    let counters :=
      match frame.kind with
      | .container (.list _) => a.counters.tail
      | _ => a.counters
    let a ← { a with stack := a.stack.tail, counters }.append missing
      (Assembly.nodesOf frame raw)
    return { a with cursor := max a.cursor stop }

/-- Makes the innermost open list item without a task marker a task item. -/
def markTask (complete : Bool) : FallibleAssembly :=
  { a with stack := Assembly.markFirstItem complete a.stack }

/-! ### Events -/

/-- Whether the innermost open construct is a code block. -/
def inCodeBlock : Bool :=
  match a.stack.head?.map Frame.kind with
  | some (.codeBlock ..) => true
  | _ => false

/-- Takes one event into account. -/
def step (located : Located) : Except ParseError FallibleAssembly :=
  let span := located.span
  match located.event with
  | .start opening => a.openFrame missing opening span.start
  | .stop => a.closeFrame missing span.stop
  | .text text => if a.inCodeBlock then a.addCode missing text span else a.addText missing span
  | .softBreak => a.addText missing span
  | .code code => a.addLeaf missing (.code code (a.unread span)) span
  | .html => a.addLeaf missing (.text (a.unread span)) span
  | .hardBreak => a.markupUntil missing span.stop
  | .rule => a.addLeaf missing (.rule (a.unread span)) span
  | .taskMarker complete => (a.markTask complete).markupUntil missing span.stop
  | .other => .ok a

/-- The forest, when nothing is left open. -/
def finish : Except ParseError Forest := do
  let a ← a.markupUntil missing (byteLength a.source)
  let a ← a.flush missing
  if a.stack.length = 1 then
    return (a.stack.head?.map Frame.children).getD []
  else
    .error (.unclosed (a.stack.length - 1))

end

variable (missing : Nat → ParseError)

/-- Takes a list of events into account. -/
def run (a : FallibleAssembly) : List Located → Except ParseError FallibleAssembly
  | [] => .ok a
  | located :: rest => (a.step missing located).bind (run · rest)

/-- The forest assembled from the events of a text, on a stack with the forest alone. -/
def read (source : String) (events : List Located) : Except ParseError Forest :=
  let start : FallibleAssembly :=
    { source := source.toList, stack := [{ kind := .root, start := 0 }] }
  (run missing start events).bind (finish missing)

/-! ### The same on both -/

/-- What follows a step without an error is run with its result. -/
theorem ok_bind {ε α β : Type} (x : α) (next : α → Except ε β) : (Except.ok x >>= next) = next x :=
  rfl

variable (a : Assembly)

/-- With a frame on the stack, scanning the run collected does not fail. -/
theorem flush_toFallible : a.toFallible.flush missing = .ok a.flush.toFallible := by
  rw [flush, modifyTop, Assembly.flush]
  simp only [Assembly.toFallible, Frame.flush]
  cases a.top.pending <;> rfl

/-- With a frame on the stack, markup up to an offset does not fail. -/
theorem markupUntil_toFallible (stop : Nat) :
    a.toFallible.markupUntil missing stop = .ok (a.markupUntil stop).toFallible := by
  rw [markupUntil, Assembly.markupUntil, flush_toFallible]
  split
  · rw [if_pos ‹_›]
  · rw [if_neg ‹_›]
    rfl

/-- With a frame on the stack, text can be added. -/
theorem addText_toFallible (span : Span) :
    a.toFallible.addText missing span = .ok (a.addText span).toFallible := by
  rw [addText, Assembly.addText, markupUntil_toFallible, ok_bind]
  generalize a.markupUntil span.start = a
  have cursor : a.toFallible.cursor = a.cursor := rfl
  have top : a.toFallible.top missing = .ok a.top := rfl
  simp only [cursor, top, ok_bind, flush_toFallible]
  split
  · rfl
  · cases pending : a.top.pending with
    | none =>
        -- An assembly does not scan here, since nothing is collected.
        have flushed : a.flush = a := by rw [Assembly.flush, pending]
        rw [flushed]
        rfl
    | some run =>
        by_cases meet : run.stop = max span.start a.cursor
        · simp [meet, modifyTop, Assembly.toFallible, pending]
        · simp [meet, modifyTop, Assembly.toFallible]

/-- With a frame on the stack, code can be added. -/
theorem addCode_toFallible (text : String) (span : Span) :
    a.toFallible.addCode missing text span = .ok (a.addCode text span).toFallible := by
  rw [addCode, Assembly.addCode, markupUntil_toFallible, ok_bind]
  generalize a.markupUntil span.start = a
  obtain ⟨source, cursor, ⟨kind, start, children, pending⟩, below, counters⟩ := a
  cases kind <;> rfl

/-- With a frame on the stack, a leaf can be added. -/
theorem addLeaf_toFallible (leaf : Leaf) (span : Span) :
    a.toFallible.addLeaf missing leaf span = .ok (a.addLeaf leaf span).toFallible := by
  rw [addLeaf, markupUntil_toFallible, ok_bind, flush_toFallible]
  rfl

/-- With a frame on the stack, a construct can be opened. -/
theorem openFrame_toFallible (opening : Opening) (start : Nat) :
    a.toFallible.openFrame missing opening start = .ok (a.openFrame opening start).toFallible := by
  rw [openFrame, markupUntil_toFallible, ok_bind, flush_toFallible]
  cases opening <;> rfl

/-- Only a stop could empty the stack, and where one construct is left, it is refused on both. -/
theorem closeFrame_toFallible (stop : Nat) :
    a.toFallible.closeFrame missing stop = (a.closeFrame stop).map Assembly.toFallible := by
  rw [closeFrame, markupUntil_toFallible, ok_bind, flush_toFallible, ok_bind, Assembly.closeFrame]
  generalize (a.markupUntil stop).flush = a
  obtain ⟨source, cursor, top, below, counters⟩ := a
  -- The children of the construct go to the one below it, so there has to be one.
  cases below with
  | nil => rfl
  | cons frame below => rfl

/-- A task marker looks for its item in the same frames. -/
theorem markTask_toFallible (complete : Bool) :
    a.toFallible.markTask complete = (a.markTask complete).toFallible := by
  rw [markTask, Assembly.toFallible, Assembly.toFallible]
  simp only [Assembly.markTask_frames]
  rw [Assembly.markTask]
  split <;> rfl

/-- The frame on top says whether text is code. -/
theorem inCodeBlock_toFallible : a.toFallible.inCodeBlock = a.inCodeBlock := by
  rw [inCodeBlock, Assembly.inCodeBlock]
  obtain ⟨source, cursor, ⟨kind, start, children, pending⟩, below, counters⟩ := a
  cases kind <;> rfl

/-- **Each event does the same on both.** -/
theorem step_toFallible (located : Located) :
    a.toFallible.step missing located = (a.step located).map Assembly.toFallible := by
  obtain ⟨event, span⟩ := located
  cases event with
  | start opening => exact openFrame_toFallible missing a opening span.start
  | stop => exact closeFrame_toFallible missing a span.stop
  | text text =>
      rw [step, Assembly.step]
      simp only [inCodeBlock_toFallible]
      split
      · exact addCode_toFallible missing a text span
      · exact addText_toFallible missing a span
  | softBreak => exact addText_toFallible missing a span
  | code code => exact addLeaf_toFallible missing a _ span
  | html => exact addLeaf_toFallible missing a _ span
  | hardBreak => exact markupUntil_toFallible missing a span.stop
  | rule => exact addLeaf_toFallible missing a _ span
  | taskMarker complete =>
      refine (congrArg (markupUntil missing · span.stop) (markTask_toFallible a complete)).trans ?_
      exact markupUntil_toFallible missing _ span.stop
  | other => rfl

/-- **So does each list of events**, by induction on it. -/
theorem run_toFallible (events : List Located) :
    run missing a.toFallible events = (a.run events).map Assembly.toFallible := by
  induction events generalizing a with
  | nil => rfl
  | cons located events ih =>
      rw [run, Assembly.run, step_toFallible]
      cases a.step located with
      | error _ => rfl
      | ok b => exact ih b

/-- With a frame on the stack at the end, the only error is that of constructs left open. -/
theorem finish_toFallible : a.toFallible.finish missing = a.finish := by
  rw [finish, Assembly.finish]
  have source : a.toFallible.source = a.source := rfl
  rw [source, markupUntil_toFallible, ok_bind, flush_toFallible, ok_bind]
  generalize (a.markupUntil (byteLength a.source)).flush = a
  obtain ⟨source, cursor, top, below, counters⟩ := a
  cases below <;> rfl

/-- **Reading comes to the same on both**, so it never comes to what an empty stack answers. -/
theorem read_eq_ofEvents (source : String) (events : List Located) :
    read missing source events = Forest.ofEvents source events := by
  have ran := run_toFallible missing { source := source.toList } events
  rw [read, Forest.ofEvents]
  refine (congrArg (Except.bind · (finish missing)) ran).trans ?_
  cases Assembly.run { source := source.toList } events with
  | error _ => rfl
  | ok a => exact finish_toFallible missing a

end FallibleAssembly

end TaggedMemos
