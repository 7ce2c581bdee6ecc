import TaggedMemos.Proofs.Lossless

/-!
# Forests before Their Runs Are Scanned

A forest is assembled from runs of text, each of which is scanned on its own, and from other leaves
that the scan never sees. A sketch is a forest with its runs left as they are, so a forest is what
one reads off its sketch by scanning. What another text gives whose markdown is the same, but for
some runs, is read off the sketch with other runs.

Every forest comes from a sketch whose runs are parts of the text. The assembly scans a run as soon
as something else comes, into the children of the innermost construct. So the children of every open
construct are read off a sketch, at any time (`Assembly.Drawn`), and which parts of the text the
runs are is up to the text events alone.

## Main results

* `Sketch.read`: the forest of a sketch.
* `Assembly.drawn_of_step`: what one event preserves.
* `exists_sketch`: a forest is read off a sketch whose runs are parts of the text.
-/

namespace TaggedMemos

open Text

/-- A run of text, with the information whether its first character is escaped. -/
structure Run where
  /-- Whether the run stands right behind a backslash. -/
  escaped : Bool
  /-- Its text. -/
  text : List Char
  deriving DecidableEq, Repr

/-- What a scan finds in a run. -/
def Run.scan (run : Run) : List Leaf :=
  scanRun run.escaped run.text

/-- The run that a text has at a span. -/
def Run.at (source : List Char) (span : Span) : Run where
  escaped := charBefore? source span.start == some '\\'
  text := slice source span

/-- A forest with its runs of text not scanned. -/
inductive Sketch where
  /-- Nothing more. -/
  | nil
  /-- A run of text, and what comes behind it. -/
  | prose (run : Run) (rest : Sketch)
  /-- A leaf that comes from no run, so it is no tag, and what comes behind it. -/
  | leaf (l : Leaf) (untagged : ∀ raw, l ≠ .tag raw) (rest : Sketch)
  /-- A container, and what comes behind it. -/
  | container (kind : ContainerKind) (children rest : Sketch)

namespace Sketch

/-- The forest of a sketch: its runs are scanned. -/
def read : Sketch → Forest
  | nil => []
  | prose run rest => run.scan.map Node.leaf ++ rest.read
  | leaf l _ rest => .leaf l :: rest.read
  | container kind children rest => .container kind children.read :: rest.read

/-- The runs of a sketch, in order. -/
def runs : Sketch → List Run
  | nil => []
  | prose run rest => run :: rest.runs
  | leaf _ _ rest => rest.runs
  | container _ children rest => children.runs ++ rest.runs

/-- A sketch with another one behind it. -/
def append (sketch behind : Sketch) : Sketch :=
  match sketch with
  | nil => behind
  | prose run rest => prose run (rest.append behind)
  | leaf l untagged rest => leaf l untagged (rest.append behind)
  | container kind children rest => container kind children (rest.append behind)

variable (sketch behind : Sketch)

/-- Two sketches are read one after the other. -/
@[simp] theorem read_append : (sketch.append behind).read = sketch.read ++ behind.read := by
  induction sketch with
  | nil => rfl
  | prose run rest ih => simp [append, read, ih]
  | leaf l untagged rest ih => simp [append, read, ih]
  | container kind children rest _ ih => simp [append, read, ih]

/-- Two sketches have their runs one after the other. -/
@[simp] theorem runs_append : (sketch.append behind).runs = sketch.runs ++ behind.runs := by
  induction sketch with
  | nil => rfl
  | prose run rest ih => simp [append, runs, ih]
  | leaf l untagged rest ih => simp [append, runs, ih]
  | container kind children rest _ ih => simp [append, runs, ih]

/-- The leaves of a run are those found by its scan. -/
@[simp] theorem leaves_read_prose (run : Run) (rest : Sketch) :
    (prose run rest).read.leaves = run.scan ++ rest.read.leaves := by
  simp [read]

/-- A leaf that the scan never sees is a leaf of the forest. -/
@[simp] theorem leaves_read_leaf (l : Leaf) (untagged : ∀ raw, l ≠ .tag raw) (rest : Sketch) :
    (leaf l untagged rest).read.leaves = l :: rest.read.leaves := by
  rw [read, Forest.leaves_cons, Forest.leaves_leaf, List.singleton_append]

/-- A container has the leaves inside of it. -/
@[simp] theorem leaves_read_container (kind : ContainerKind) (children rest : Sketch) :
    (container kind children rest).read.leaves = children.read.leaves ++ rest.read.leaves := by
  rw [read, Forest.leaves_cons, Forest.leaves_container]

/-- A tag of a forest is found in a run of its sketch. -/
theorem exists_run_of_mem_leaves {raw : String} (member : .tag raw ∈ sketch.read.leaves) :
    ∃ run ∈ sketch.runs, .tag raw ∈ run.scan := by
  induction sketch with
  | nil => cases member
  | prose run rest ih =>
      rw [leaves_read_prose, List.mem_append] at member
      rcases member with here | later
      · exact ⟨run, List.mem_cons_self, here⟩
      · obtain ⟨run', member, found⟩ := ih later
        exact ⟨run', List.mem_cons_of_mem _ member, found⟩
  | leaf l untagged rest ih =>
      rw [leaves_read_leaf, List.mem_cons] at member
      exact ih (member.resolve_left (untagged raw).symm)
  | container kind children rest inner ih =>
      rw [leaves_read_container, List.mem_append] at member
      rcases member with inside | later
      · obtain ⟨run, member, found⟩ := inner inside
        exact ⟨run, List.mem_append_left _ member, found⟩
      · obtain ⟨run, member, found⟩ := ih later
        exact ⟨run, List.mem_append_right _ member, found⟩

end Sketch

/-- A forest is read off a sketch whose runs stand in the text, at places of some kind. -/
def IsDrawn (source : List Char) (P : Span → Prop) (nodes : Forest) : Prop :=
  ∃ sketch : Sketch, sketch.read = nodes ∧
    ∀ run ∈ sketch.runs, ∃ span, P span ∧ run = .at source span

section IsDrawn

variable {source : List Char} {P : Span → Prop} {nodes nodes' : Forest}

/-- An empty forest is drawn from anything. -/
theorem IsDrawn.nil : IsDrawn source P [] :=
  ⟨.nil, rfl, by simp [Sketch.runs]⟩

/-- What is drawn may be put behind what is drawn. -/
theorem IsDrawn.append (first : IsDrawn source P nodes) (second : IsDrawn source P nodes') :
    IsDrawn source P (nodes ++ nodes') := by
  obtain ⟨sketch, rfl, placed⟩ := first
  obtain ⟨behind, rfl, placed'⟩ := second
  refine ⟨sketch.append behind, sketch.read_append behind, fun run member => ?_⟩
  rw [Sketch.runs_append, List.mem_append] at member
  exact member.elim (placed run) (placed' run)

/-- A leaf that is no tag needs no run. -/
theorem IsDrawn.leaf {leaf : Leaf} (untagged : ∀ raw, leaf ≠ .tag raw) :
    IsDrawn source P [.leaf leaf] :=
  ⟨.leaf leaf untagged .nil, rfl, by simp [Sketch.runs]⟩

/-- A container is drawn if what is inside is. -/
theorem IsDrawn.container (kind : ContainerKind) (children : IsDrawn source P nodes) :
    IsDrawn source P [.container kind nodes] := by
  obtain ⟨sketch, rfl, placed⟩ := children
  exact ⟨.container kind sketch .nil, rfl, by simpa [Sketch.runs] using placed⟩

/-- What a scan finds in a run is drawn from it. -/
theorem IsDrawn.run {span : Span} (placed : P span) :
    IsDrawn source P ((Run.at source span).scan.map Node.leaf) :=
  ⟨.prose (.at source span) .nil, by simp [Sketch.read],
    by simpa [Sketch.runs] using ⟨span, placed, rfl⟩⟩

end IsDrawn

namespace Assembly

variable {a b : Assembly} {source : List Char} {P : Span → Prop}

/-- The children of all open constructs are read off sketches, and runs are collected in the
innermost construct alone. -/
structure Drawn (source : List Char) (P : Span → Prop) (a : Assembly) : Prop where
  /-- The text is that of the sketches. -/
  text : a.source = source
  /-- The children of the innermost construct. -/
  top : IsDrawn source P a.top.children
  /-- The children of the constructs around it. -/
  below : ∀ frame ∈ a.below, IsDrawn source P frame.children
  /-- The constructs around it have no run. -/
  pending : ∀ frame ∈ a.below, frame.pending = none

/-- The run collected may be scanned. -/
def Ready (P : Span → Prop) (a : Assembly) : Prop :=
  ∀ run, a.top.pending = some run → P run

/-- An event continues the run collected. -/
structure Extends (a : Assembly) (e : Located) (run : Span) : Prop where
  /-- It is text. -/
  prose : e.event = .softBreak ∨ (∃ text, e.event = .text text) ∧ a.inCodeBlock = false
  /-- Text is collected up to the cursor. -/
  cursor : run.stop = a.cursor
  /-- It begins where the run ends. -/
  start : e.span.start = a.cursor
  /-- It is not empty. -/
  stop : a.cursor < e.span.stop

/-! ### The parts of a step -/

/-- Nodes that are drawn may be added. -/
theorem Drawn.appendNodes {nodes : Forest} (drawn : a.Drawn source P)
    (new : IsDrawn source P nodes) : (a.append nodes).Drawn source P :=
  ⟨drawn.text, drawn.top.append new, drawn.below, drawn.pending⟩

/-- Where no run is left, nothing is to be said of it. -/
theorem ready_of_none (none : a.top.pending = none) : a.Ready P := by
  intro run pending
  rw [none] at pending
  cases pending

/-- A run that is ready may be scanned. -/
theorem Drawn.flush (drawn : a.Drawn source P) (ready : a.Ready P) : a.flush.Drawn source P := by
  rw [Assembly.flush]
  split
  · exact drawn
  · next run pending =>
      have scanned : IsDrawn source P ((Run.at source run).scan.map Node.leaf) :=
        .run (ready run pending)
      rw [← drawn.text] at scanned
      refine ⟨drawn.text, drawn.top.append ?_, drawn.below, drawn.pending⟩
      exact drawn.text ▸ scanned

/-- Markup is a leaf, and no tag. The run before it is scanned. -/
theorem Drawn.markupUntil (drawn : a.Drawn source P) (ready : a.Ready P) (stop : Nat) :
    (a.markupUntil stop).Drawn source P ∧ (a.markupUntil stop).Ready P := by
  rw [Assembly.markupUntil]
  split
  · exact ⟨drawn, ready⟩
  · have markup : IsDrawn source P
        [.leaf (.markup (String.ofList (slice a.source ⟨a.cursor, stop⟩)))] := .leaf (by simp)
    obtain ⟨text, top, below, pending⟩ := (drawn.flush ready).appendNodes markup
    exact ⟨⟨text, top, below, pending⟩, ready_of_none (flush_pending a)⟩

/-- Text may be added, which is not scanned yet. -/
theorem Drawn.addText (drawn : a.Drawn source P) (ready : a.Ready P) (span : Span) :
    (a.addText span).Drawn source P := by
  obtain ⟨marked, ready⟩ := drawn.markupUntil ready span.start
  rw [Assembly.addText]
  simp only
  split
  · exact marked
  · split
    · split
      · exact ⟨marked.text, marked.top, marked.below, marked.pending⟩
      · obtain ⟨text, top, below, pending⟩ := marked.flush ready
        exact ⟨text, top, below, pending⟩
    · exact ⟨marked.text, marked.top, marked.below, marked.pending⟩

/-- A leaf that is no tag may be added. -/
theorem Drawn.addLeaf {leaf : Leaf} (drawn : a.Drawn source P) (ready : a.Ready P) (span : Span)
    (untagged : ∀ raw, leaf ≠ .tag raw) : (a.addLeaf leaf span).Drawn source P := by
  obtain ⟨marked, ready⟩ := drawn.markupUntil ready span.start
  obtain ⟨text, top, below, pending⟩ := (marked.flush ready).appendNodes (.leaf untagged)
  exact ⟨text, top, below, pending⟩

/-- Code may be added, which is never scanned. -/
theorem Drawn.addCode (drawn : a.Drawn source P) (ready : a.Ready P) (code : String) (span : Span) :
    (a.addCode code span).Drawn source P := by
  obtain ⟨text, top, below, pending⟩ := (drawn.markupUntil ready span.start).1
  exact ⟨text, top, below, pending⟩

/-- A construct may be opened, where nothing is inside. -/
theorem Drawn.openFrame (drawn : a.Drawn source P) (ready : a.Ready P) (opening : Opening)
    (start : Nat) : (a.openFrame opening start).Drawn source P := by
  obtain ⟨marked, ready⟩ := drawn.markupUntil ready start
  have flushed := marked.flush ready
  refine ⟨flushed.text, .nil, ?_, ?_⟩
  · exact List.forall_mem_cons.mpr ⟨flushed.top, flushed.below⟩
  · exact List.forall_mem_cons.mpr ⟨flush_pending _, flushed.pending⟩

/-- What a construct leaves behind is read off a sketch if its children are. -/
theorem isDrawn_nodesOf {frame : Frame} (children : IsDrawn source P frame.children)
    (raw : String) : IsDrawn source P (nodesOf frame raw) := by
  rw [nodesOf]
  cases frame.kind with
  | link auto url title => cases auto <;> exact .leaf (by simp)
  | image url title => exact .leaf (by simp)
  | codeBlock language content => exact .leaf (by simp)
  | container kind => exact .container kind children
  | through => exact children
  | root => exact children

/-- A construct may be closed, and no run is collected then. -/
theorem Drawn.closeFrame {stop : Nat} (drawn : a.Drawn source P) (ready : a.Ready P)
    (closed : a.closeFrame stop = .ok b) :
    b.Drawn source P ∧ b.top.pending = none := by
  obtain ⟨marked, ready⟩ := drawn.markupUntil ready stop
  have flushed := marked.flush ready
  obtain ⟨frame, raw, around, same, -, top⟩ := closeFrame_eq_ok closed
  have below := flushed.below
  have pending := flushed.pending
  rw [around, List.forall_mem_cons] at below pending
  refine ⟨⟨same.trans drawn.text, ?_, below.2, pending.2⟩, ?_⟩
  · rw [top]
    exact below.1.append (isDrawn_nodesOf flushed.top raw)
  · rw [top]
    exact pending.1

/-- Constructs that differ in what they are to become have the same children and the same run. -/
theorem parts_of_outline {frame frame' : Frame} (alike : frame.outline = frame'.outline) :
    frame.children = frame'.children ∧ frame.pending = frame'.pending := by
  simp only [Frame.outline, Frame.mk.injEq] at alike
  exact alike.2.2

/-- A task marker changes the kind of an item, and neither children nor runs. -/
theorem markTask_outline (a : Assembly) (complete : Bool) :
    (a.markTask complete).source = a.source ∧
      (a.markTask complete).top.outline = a.top.outline ∧
      (a.markTask complete).below.map Frame.outline = a.below.map Frame.outline := by
  have source : (a.markTask complete).source = a.source := by
    rw [markTask]
    split <;> rfl
  have same := outline_markFirstItem complete (a.top :: a.below)
  rw [← markTask_frames, List.map_cons, List.map_cons] at same
  exact ⟨source, List.cons.inj same⟩

/-- A task marker adds no node. -/
theorem Drawn.markTask (drawn : a.Drawn source P) (complete : Bool) :
    (a.markTask complete).Drawn source P := by
  obtain ⟨same, top, below⟩ := markTask_outline a complete
  have kept : ∀ frame ∈ (a.markTask complete).below, ∃ frame' ∈ a.below,
      frame'.children = frame.children ∧ frame'.pending = frame.pending := by
    intro frame member
    have outlined := List.mem_map_of_mem (f := Frame.outline) member
    rw [below] at outlined
    obtain ⟨frame', member', alike⟩ := List.mem_map.mp outlined
    exact ⟨frame', member', parts_of_outline alike⟩
  refine ⟨same.trans drawn.text, ?_, fun frame member => ?_, fun frame member => ?_⟩
  · rw [(parts_of_outline top).1]
    exact drawn.top
  · obtain ⟨frame', member', children, -⟩ := kept frame member
    exact children ▸ drawn.below frame' member'
  · obtain ⟨frame', member', -, pending⟩ := kept frame member
    exact pending ▸ drawn.pending frame' member'

/-- A task marker leaves the run collected. -/
theorem pending_markTask (a : Assembly) (complete : Bool) :
    (a.markTask complete).top.pending = a.top.pending :=
  (parts_of_outline (markTask_outline a complete).2.1).2

/-! ### Streams -/

/-- No event changes the text that is read. -/
theorem source_of_step {e : Located} (stepped : a.step e = .ok b) : b.source = a.source := by
  have addText (span : Span) : (a.addText span).source = a.source := by
    rw [Assembly.addText]
    simp only
    split
    · exact markupUntil_source a span.start
    · split
      · split
        · exact markupUntil_source a span.start
        · exact (flush_source _).trans (markupUntil_source a span.start)
      · exact markupUntil_source a span.start
  have addLeaf (leaf : Leaf) (span : Span) : (a.addLeaf leaf span).source = a.source :=
    (flush_source _).trans (markupUntil_source a span.start)
  obtain ⟨event, span⟩ := e
  cases event with
  | start opening => exact Except.ok.inj stepped ▸ openFrame_source a opening span.start
  | stop =>
      obtain ⟨_, _, -, same, -⟩ := closeFrame_eq_ok stepped
      exact same
  | text text =>
      obtain rfl := Except.ok.inj stepped
      split
      · exact markupUntil_source a span.start
      · exact addText span
  | softBreak => exact Except.ok.inj stepped ▸ addText span
  | hardBreak => exact Except.ok.inj stepped ▸ markupUntil_source a span.stop
  | code code => exact Except.ok.inj stepped ▸ addLeaf _ span
  | html => exact Except.ok.inj stepped ▸ addLeaf _ span
  | rule => exact Except.ok.inj stepped ▸ addLeaf _ span
  | taskMarker complete =>
      obtain rfl := Except.ok.inj stepped
      exact (markupUntil_source _ span.stop).trans (markTask_outline a complete).1
  | other => exact Except.ok.inj stepped ▸ rfl

/-- Events leave the text as it is. -/
theorem source_of_run {events : List Located} (ran : a.run events = .ok b) :
    b.source = a.source := by
  induction events generalizing a with
  | nil => exact Except.ok.inj ran ▸ rfl
  | cons e events ih =>
      obtain ⟨m, stepped, further⟩ := run_cons_eq_ok.mp ran
      exact (ih further).trans (source_of_step stepped)

/-- Text that continues the run makes it longer, and nothing else. -/
theorem addText_of_extends {e : Located} {run : Span} (pending : a.top.pending = some run)
    (continues : a.Extends e run) :
    a.addText e.span =
      { a with
        cursor := e.span.stop
        top := { a.top with pending := some ⟨run.start, e.span.stop⟩ } } := by
  have marked : a.markupUntil e.span.start = a := by
    rw [markupUntil, if_pos continues.start.le]
  have filled : ¬ e.span.stop ≤ a.cursor := Nat.not_le_of_lt continues.stop
  rw [addText, marked]
  simp [filled, pending, continues.cursor, continues.start]

/-- An event that continues the run makes it longer, and does nothing else. -/
theorem step_of_extends {e : Located} {run : Span} (pending : a.top.pending = some run)
    (continues : a.Extends e run) :
    a.step e = .ok { a with
      cursor := e.span.stop
      top := { a.top with pending := some ⟨run.start, e.span.stop⟩ } } := by
  rw [← addText_of_extends pending continues, step]
  rcases continues.prose with soft | ⟨⟨text, prose⟩, outside⟩
  · rw [soft]
  · simp [prose, outside]

/-- **What one event preserves**: an event that does not continue the run may have it scanned. -/
theorem drawn_of_step {e : Located} (drawn : a.Drawn source P)
    (ready : ∀ run, a.top.pending = some run → P run ∨ a.Extends e run)
    (stepped : a.step e = .ok b) : b.Drawn source P := by
  by_cases ready' : a.Ready P
  · obtain ⟨event, span⟩ := e
    cases event with
    | start opening => exact Except.ok.inj stepped ▸ drawn.openFrame ready' opening span.start
    | stop => exact (drawn.closeFrame ready' stepped).1
    | text text =>
        obtain rfl := Except.ok.inj stepped
        split
        · exact drawn.addCode ready' text span
        · exact drawn.addText ready' span
    | softBreak => exact Except.ok.inj stepped ▸ drawn.addText ready' span
    | hardBreak => exact Except.ok.inj stepped ▸ (drawn.markupUntil ready' span.stop).1
    | code code => exact Except.ok.inj stepped ▸ drawn.addLeaf ready' span (by simp)
    | html => exact Except.ok.inj stepped ▸ drawn.addLeaf ready' span (by simp)
    | rule => exact Except.ok.inj stepped ▸ drawn.addLeaf ready' span (by simp)
    | taskMarker complete =>
        obtain rfl := Except.ok.inj stepped
        have marked : (a.markTask complete).Ready P := fun run pending =>
          ready' run ((pending_markTask a complete).symm.trans pending)
        exact ((drawn.markTask complete).markupUntil marked span.stop).1
    | other => exact Except.ok.inj stepped ▸ drawn
  · simp only [Ready, not_forall] at ready'
    obtain ⟨run, pending, other⟩ := ready'
    have continues := (ready run pending).resolve_left other
    obtain rfl := Except.ok.inj (stepped.symm.trans (step_of_extends pending continues))
    exact ⟨drawn.text, drawn.top, drawn.below, drawn.pending⟩

/-- So does a run of events, if any run of text may be scanned. -/
theorem drawn_of_run {events : List Located} (drawn : a.Drawn source fun _ => True)
    (ran : a.run events = .ok b) : b.Drawn source fun _ => True := by
  induction events generalizing a with
  | nil => exact Except.ok.inj ran ▸ drawn
  | cons e events ih =>
      obtain ⟨m, stepped, further⟩ := run_cons_eq_ok.mp ran
      exact ih (drawn_of_step drawn (fun _ _ => .inl trivial) stepped) further

/-- The forest in which all ends is read off a sketch. -/
theorem isDrawn_of_finish {nodes : Forest} (drawn : a.Drawn source P) (ready : a.Ready P)
    (finished : a.finish = .ok nodes) : IsDrawn source P nodes := by
  obtain ⟨marked, ready⟩ := drawn.markupUntil ready (byteLength a.source)
  have flushed := marked.flush ready
  unfold finish at finished
  simp only at finished
  split at finished
  · exact Except.ok.inj finished ▸ flushed.top
  · cases finished

end Assembly

/-- A forest is read exactly if all events are processed, and nothing is left open. -/
theorem Forest.ofEvents_eq_ok {source : String} {events : List Located} {nodes : Forest} :
    Forest.ofEvents source events = .ok nodes ↔
      ∃ a, Assembly.run { source := source.toList } events = .ok a ∧ a.finish = .ok nodes := by
  unfold Forest.ofEvents
  simp only
  cases Assembly.run { source := source.toList } events with
  | error _ => simp [Except.bind]
  | ok a => simp [Except.bind]

/-- **A forest is read off a sketch whose runs are parts of the text.** -/
theorem exists_sketch {source : String} {events : List Located} {nodes : Forest}
    (read : Forest.ofEvents source events = .ok nodes) :
    ∃ sketch : Sketch, sketch.read = nodes ∧
      ∀ run ∈ sketch.runs, ∃ span, run = .at source.toList span := by
  obtain ⟨a, ran, finished⟩ := Forest.ofEvents_eq_ok.mp read
  have start : Assembly.Drawn source.toList (fun _ => True) { source := source.toList } :=
    ⟨rfl, .nil, by simp, by simp⟩
  have drawn := Assembly.drawn_of_run start ran
  obtain ⟨sketch, read, placed⟩ := Assembly.isDrawn_of_finish drawn (fun _ _ => trivial) finished
  exact ⟨sketch, read, fun run member => (placed run member).imp fun span placed => placed.2⟩

end TaggedMemos
