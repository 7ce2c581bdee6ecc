import TaggedMemos.Proofs.Lossless

/-!
# The Stack without Its Text

Which containers a forest has is settled by starts, stops and task markers alone. Every other event
leaves the stack of open constructs as it is, up to leaves, wherever its span lies. So a stack is
looked at without its leaves, its offsets and its collected text: as bare frames. On those a start
pushes a frame, a stop moves what is left of the innermost frame into the next one, and a marker
goes to the innermost item that has none.

A stop therefore fails only where nothing is open, and a balanced stream can always be read, with
spans of any kind.

## Main results

* `Assembly.step_plain`: what an event does that neither begins nor ends a construct.
* `Assembly.bare_openFrame`, `Assembly.closeFrame_bare`: what a start and a stop do.
* `Assembly.exists_run_of_balanced`: a balanced stream is read, and as much is open afterwards.
-/

namespace TaggedMemos

open Text

/-- The task marker an event is. -/
def Event.marker? : Event → Option Bool
  | taskMarker complete => some complete
  | _ => none

/-! ### Bare frames -/

/-- A kind of construct without the code collected. -/
def FrameKind.withoutCode : FrameKind → FrameKind
  | codeBlock language _ => codeBlock language []
  | kind => kind

/-- Whether a construct becomes a list. -/
def FrameKind.isList : FrameKind → Bool
  | container (.list _) => true
  | _ => false

/-- An open construct without anything that depends on the text. -/
def Frame.bare (frame : Frame) : Frame :=
  { kind := frame.kind.withoutCode, start := 0, children := Forest.skeleton frame.children }

/-- What a bare construct leaves behind. -/
def Frame.remains (frame : Frame) : Forest :=
  match frame.kind with
  | .container kind => [.container kind frame.children]
  | .through | .root => frame.children
  | .link .. | .image .. | .codeBlock .. => []

/-- A stack with nodes added inside of its innermost construct. -/
def addInside (nodes : Forest) : List Frame → List Frame
  | [] => []
  | frame :: frames => { frame with children := frame.children ++ nodes } :: frames

@[simp] theorem FrameKind.isList_withoutCode (kind : FrameKind) :
    kind.withoutCode.isList = kind.isList := by
  cases kind <;> rfl

@[simp] theorem Frame.isPlainItem_bare (frame : Frame) :
    frame.bare.isPlainItem = frame.isPlainItem := by
  obtain ⟨kind, start, children, pending⟩ := frame
  cases kind <;> rfl

/-- A construct leaves its containers behind, whatever text it stands for. -/
theorem skeleton_nodesOf (frame : Frame) (raw : String) :
    Forest.skeleton (Assembly.nodesOf frame raw) = frame.bare.remains := by
  obtain ⟨kind, start, children, pending⟩ := frame
  cases kind with
  | link auto url title => cases auto <;> rfl
  | container kind => exact Forest.skeleton_container kind children
  | _ => rfl

@[simp] theorem addInside_nil (frames : List Frame) : addInside [] frames = frames := by
  cases frames <;> simp [addInside]

/-- Nodes are added one after the other. -/
theorem addInside_addInside (nodes nodes' : Forest) (frames : List Frame) :
    addInside nodes' (addInside nodes frames) = addInside (nodes ++ nodes') frames := by
  cases frames <;> simp [addInside]

/-- Added nodes open no construct. -/
@[simp] theorem length_addInside (nodes : Forest) (frames : List Frame) :
    (addInside nodes frames).length = frames.length := by
  cases frames <;> rfl

namespace Assembly

variable {a b : Assembly}

/-- The open constructs without their text, innermost first. -/
def bare (a : Assembly) : List Frame :=
  (a.top :: a.below).map Frame.bare

/-! ### Task markers -/

/-- A stack with task markers taken into account, one after the other. -/
def markItems (markers : List Bool) (frames : List Frame) : List Frame :=
  markers.foldl (fun frames complete => markFirstItem complete frames) frames

/-- A task marker finds its item among the bare constructs as well. -/
theorem bare_markFirstItem (complete : Bool) (frames : List Frame) :
    (markFirstItem complete frames).map Frame.bare =
      markFirstItem complete (frames.map Frame.bare) := by
  induction frames with
  | nil => rfl
  | cons frame frames ih =>
      rw [List.map_cons, markFirstItem, markFirstItem, Frame.isPlainItem_bare]
      split
      · rfl
      · rw [List.map_cons, ih]

/-- Marking an item and adding nodes do not get in each other's way. -/
theorem markFirstItem_addInside (complete : Bool) (nodes : Forest) (frames : List Frame) :
    markFirstItem complete (addInside nodes frames) =
      addInside nodes (markFirstItem complete frames) := by
  cases frames with
  | nil => rfl
  | cons frame frames =>
      have same : Frame.isPlainItem { frame with children := frame.children ++ nodes } =
          frame.isPlainItem := rfl
      rw [addInside, markFirstItem, markFirstItem, same]
      split
      · rfl
      · rfl

/-- Task markers do not depend on what is inside of the constructs. -/
theorem markItems_addInside (markers : List Bool) (nodes : Forest) (frames : List Frame) :
    markItems markers (addInside nodes frames) = addInside nodes (markItems markers frames) := by
  induction markers generalizing frames with
  | nil => rfl
  | cons complete markers ih =>
      rw [markItems, List.foldl_cons, markFirstItem_addInside]
      exact ih _

@[simp] theorem markItems_nil (markers : List Bool) : markItems markers [] = [] := by
  induction markers with
  | nil => rfl
  | cons _ _ ih => exact ih

/-- Task markers are taken one after the other. -/
theorem markItems_append (markers markers' : List Bool) (frames : List Frame) :
    markItems (markers ++ markers') frames = markItems markers' (markItems markers frames) :=
  List.foldl_append

/-- Markers pass by a construct that is no item without a marker. -/
theorem markItems_cons {frame : Frame} (other : frame.isPlainItem = false) (markers : List Bool)
    (frames : List Frame) :
    markItems markers (frame :: frames) = frame :: markItems markers frames := by
  induction markers generalizing frames with
  | nil => rfl
  | cons complete markers ih =>
      rw [markItems, List.foldl_cons, markFirstItem, if_neg (by simp [other])]
      exact ih _

/-- Task markers change nothing but what kind of item a construct is. -/
theorem outline_markItems (markers : List Bool) (frames : List Frame) :
    (markItems markers frames).map Frame.outline = frames.map Frame.outline := by
  induction markers generalizing frames with
  | nil => rfl
  | cons complete markers ih => exact (ih _).trans (outline_markFirstItem complete frames)

/-- Task markers open and close no construct. -/
theorem length_markItems (markers : List Bool) (frames : List Frame) :
    (markItems markers frames).length = frames.length := by
  have same := congrArg List.length (outline_markItems markers frames)
  rwa [List.length_map, List.length_map] at same

/-- A task marker does the same to the bare constructs. -/
theorem bare_markTask (a : Assembly) (complete : Bool) :
    (a.markTask complete).bare = markFirstItem complete a.bare := by
  rw [bare, bare, markTask_frames, bare_markFirstItem]

@[simp] theorem markTask_counters (a : Assembly) (complete : Bool) :
    (a.markTask complete).counters = a.counters := by
  rw [markTask]
  split <;> rfl

/-! ### Leaves -/

/-- Nodes are added to the bare constructs without their leaves. -/
theorem bare_append (a : Assembly) (nodes : Forest) :
    (a.append nodes).bare = addInside (Forest.skeleton nodes) a.bare := by
  simp [append, bare, addInside, Frame.bare]

/-- A scan finds leaves, which the bare constructs do not have. -/
@[simp] theorem bare_flush (a : Assembly) : a.flush.bare = a.bare := by
  rw [flush]
  split
  · rfl
  · simp [bare, Frame.bare]

/-- Markup is a leaf as well. -/
@[simp] theorem bare_markupUntil (a : Assembly) (stop : Nat) :
    (a.markupUntil stop).bare = a.bare := by
  rw [markupUntil]
  split
  · rfl
  · exact (bare_append a.flush _).trans (by simp)

@[simp] theorem markupUntil_counters (a : Assembly) (stop : Nat) :
    (a.markupUntil stop).counters = a.counters := by
  rw [markupUntil]
  split
  · rfl
  · exact flush_counters a

/-- Text changes neither the bare stack nor the counters. -/
theorem addText_bare (a : Assembly) (span : Span) :
    (a.addText span).bare = a.bare ∧ (a.addText span).counters = a.counters := by
  have bare := bare_markupUntil a span.start
  have counters := markupUntil_counters a span.start
  rw [addText]
  generalize a.markupUntil span.start = m at bare counters ⊢
  have flushed := bare_flush m
  rw [← bare, ← counters]
  simp only
  split
  · exact ⟨rfl, rfl⟩
  · split
    · split
      · exact ⟨rfl, rfl⟩
      · exact ⟨flushed, flush_counters m⟩
    · exact ⟨rfl, rfl⟩

/-- Code belongs to a leaf. -/
theorem addCode_bare (a : Assembly) (text : String) (span : Span) :
    (a.addCode text span).bare = a.bare ∧ (a.addCode text span).counters = a.counters := by
  have bare := bare_markupUntil a span.start
  have counters := markupUntil_counters a span.start
  rw [addCode]
  generalize a.markupUntil span.start = m at bare counters ⊢
  rw [← bare, ← counters]
  refine ⟨?_, rfl⟩
  cases kind : m.top.kind <;> simp [Assembly.bare, Frame.bare, FrameKind.withoutCode, kind]

/-- A leaf leaves the bare constructs as they are, and the counters. -/
theorem addLeaf_bare (a : Assembly) (leaf : Leaf) (span : Span) :
    (a.addLeaf leaf span).bare = a.bare ∧ (a.addLeaf leaf span).counters = a.counters := by
  have added := bare_append (a.markupUntil span.start).flush [.leaf leaf]
  simp only [bare_flush, bare_markupUntil, Forest.skeleton_leaf, addInside_nil] at added
  exact ⟨added, by simp [addLeaf, append]⟩

/-! ### Events -/

/-- **An event that neither begins nor ends a construct** can always be taken into account. Only a
task marker changes the bare stack. -/
theorem step_plain {e : Located} (plain : e.event.isPlain = true) (a : Assembly) :
    ∃ b, a.step e = .ok b ∧ b.bare = markItems e.event.marker?.toList a.bare ∧
      b.counters = a.counters := by
  obtain ⟨event, span⟩ := e
  cases event with
  | start _ => cases plain
  | stop => cases plain
  | text text =>
      refine ⟨_, rfl, ?_⟩
      cases a.inCodeBlock with
      | true => exact addCode_bare a text span
      | false => exact addText_bare a span
  | softBreak => exact ⟨_, rfl, addText_bare a span⟩
  | hardBreak => exact ⟨_, rfl, bare_markupUntil a span.stop, markupUntil_counters a span.stop⟩
  | code code => exact ⟨_, rfl, addLeaf_bare a _ span⟩
  | html => exact ⟨_, rfl, addLeaf_bare a _ span⟩
  | rule => exact ⟨_, rfl, addLeaf_bare a _ span⟩
  | taskMarker complete =>
      refine ⟨_, rfl, ?_, by simp⟩
      rw [bare_markupUntil, bare_markTask]
      rfl
  | other => exact ⟨a, rfl, rfl, rfl⟩

/-- A start pushes a frame without children. -/
theorem bare_openFrame (a : Assembly) (opening : Opening) (start : Nat) :
    (a.openFrame opening start).bare =
      { kind := a.frameKind opening, start := 0, children := [] } :: a.bare := by
  have around : ((a.markupUntil start).flush).bare = a.bare := by simp
  rw [← around]
  cases opening with
  | item =>
      cases counters : a.counters with
      | nil => simp [openFrame, bare, Frame.bare, frameKind, counters, FrameKind.withoutCode]
      | cons next _ =>
          cases next <;>
            simp [openFrame, bare, Frame.bare, frameKind, counters, FrameKind.withoutCode]
  | _ => simp [openFrame, bare, Frame.bare, frameKind, FrameKind.withoutCode]

/-- **A stop where something is open** moves what is left of the innermost construct into the next
one. A list takes its counter along. -/
theorem closeFrame_bare {frame : Frame} {frames : List Frame} (opened : a.bare = frame :: frames)
    (around : frames ≠ []) (stop : Nat) :
    ∃ b, a.closeFrame stop = .ok b ∧ b.bare = addInside frame.remains frames ∧
      b.counters = if frame.kind.isList then a.counters.tail else a.counters := by
  have same : ((a.markupUntil stop).flush).bare = frame :: frames := by simpa using opened
  have counters : ((a.markupUntil stop).flush).counters = a.counters := by simp
  rw [closeFrame]
  simp only
  generalize (a.markupUntil stop).flush = m at same counters ⊢
  rw [bare, List.map_cons, List.cons.injEq] at same
  obtain ⟨rfl, rfl⟩ := same
  cases below : m.below with
  | nil => exact absurd (by rw [below, List.map_nil]) around
  | cons outer rest =>
      refine ⟨_, rfl, ?_, ?_⟩
      · simp [bare, addInside, Frame.bare, skeleton_nodesOf]
      · rw [← counters]
        simp only [Frame.bare, FrameKind.isList_withoutCode]
        cases kind : m.top.kind with
        | container k => cases k <;> rfl
        | _ => rfl

/-- A stop where nothing is open is the one failure there is. -/
theorem closeFrame_error {frame : Frame} (opened : a.bare = [frame]) (stop : Nat) :
    a.closeFrame stop = .error (.unbalancedStop stop) := by
  have same : ((a.markupUntil stop).flush).bare = [frame] := by simpa using opened
  rw [closeFrame]
  simp only
  generalize (a.markupUntil stop).flush = m at same ⊢
  rw [bare, List.map_cons, List.cons.injEq, List.map_eq_nil_iff] at same
  rw [same.2]

/-- There is always a construct around. -/
theorem bare_ne_nil (a : Assembly) : a.bare ≠ [] :=
  List.cons_ne_nil _ _

/-- There are as many bare constructs as frames. -/
theorem length_bare (a : Assembly) : a.bare.length = a.below.length + 1 := by
  simp [bare]

/-- **A balanced stream is read**, and leaves as many constructs open as were open before. -/
theorem exists_run_of_balanced {events : List Located} (balanced : Balanced events)
    (a : Assembly) : ∃ b, a.run events = .ok b ∧ b.below.length = a.below.length := by
  induction balanced generalizing a with
  | nil => exact ⟨a, rfl, rfl⟩
  | @plain e rest plain _ ih =>
      obtain ⟨b, stepped, bare, -⟩ := step_plain plain a
      obtain ⟨d, ran, depth⟩ := ih b
      have same := congrArg List.length bare
      rw [length_markItems, length_bare, length_bare] at same
      exact ⟨d, by rw [run, stepped, Except.bind, ran], by omega⟩
  | @nested opening span span' inner rest _ _ ihInner ihRest =>
      obtain ⟨b, inside, depth⟩ := ihInner (a.openFrame opening span.start)
      -- The construct is still open, and so is what is around it.
      have deep : b.bare.length = a.bare.length + 1 := by
        rw [length_bare, depth, ← length_bare, bare_openFrame, List.length_cons]
      obtain ⟨frame, frames, opened⟩ := List.exists_cons_of_ne_nil (bare_ne_nil b)
      rw [opened, List.length_cons, Nat.add_left_inj] at deep
      have around : frames ≠ [] := by
        rintro rfl
        cases bare_ne_nil a (List.length_eq_zero_iff.mp deep.symm)
      obtain ⟨d, closed, bare, -⟩ := closeFrame_bare opened around span'.stop
      obtain ⟨z, ran, depth'⟩ := ihRest d
      refine ⟨z, by rw [run_construct inside closed, ran], ?_⟩
      have same := congrArg List.length bare
      rw [length_addInside, deep, length_bare, length_bare] at same
      omega

/-- Where only the forest itself is open, assembly ends with its containers. -/
theorem finish_bare {frame : Frame} (opened : a.bare = [frame]) :
    ∃ nodes, a.finish = .ok nodes ∧ Forest.skeleton nodes = frame.children := by
  have same : ((a.markupUntil (byteLength a.source)).flush).bare = [frame] := by
    simpa using opened
  unfold finish
  simp only
  generalize (a.markupUntil (byteLength a.source)).flush = m at same ⊢
  rw [bare, List.map_cons, List.cons.injEq, List.map_eq_nil_iff] at same
  obtain ⟨rfl, closed⟩ := same
  exact ⟨m.top.children, by simp [closed], rfl⟩

end Assembly

end TaggedMemos
