import TaggedMemos.Forest.Assembly
import TaggedMemos.Proofs.EventStream
import TaggedMemos.Proofs.Leaves
import TaggedMemos.Proofs.Scan

/-!
# Reading Loses Nothing

A forest assembled from the events of a text is written as that text, whatever the events are, as
long as they are faithful to it, and however leaves without a text would be written: there are none.

What carries the proof is a relation between an assembly and a later one with the same constructs
open around the innermost one: `Advances`. The text laid in the innermost construct grows by just
what lies between the two cursors. It says nothing about what is laid in a code block, where the
code is kept elsewhere. A link, an image or a code block replaces what was laid inside of it by the
text from its start to its stop, and this is the same text because the cursor stands at the stop.

## Main results

* `Assembly.advances_of_plain`: an event that neither begins nor ends a construct advances.
* `Assembly.runsTo_of_balanced`: so does any balanced stream, by induction on how it is balanced.
* `ofEvents_lossless`: reading a faithful stream succeeds, and writing gives the text back.
-/

namespace TaggedMemos

open Text

/-! ### Constructs that are alike -/

/-- A kind of construct without what changes while the construct is open. -/
def FrameKind.shape : FrameKind → FrameKind
  | container _ => container .paragraph
  | codeBlock language _ => codeBlock language []
  | kind => kind

/-- Whether a construct becomes a leaf that keeps its text. -/
def FrameKind.isLeaf : FrameKind → Bool
  | link .. | image .. | codeBlock .. => true
  | _ => false

/-- Whether a construct is a code block. -/
def FrameKind.isCode : FrameKind → Bool
  | codeBlock .. => true
  | _ => false

/-- Frames of the same shape are both leaves or both are not. -/
theorem FrameKind.isLeaf_of_shape {kind kind' : FrameKind} (alike : kind.shape = kind'.shape) :
    kind.isLeaf = kind'.isLeaf := by
  cases kind <;> cases kind' <;> simp_all [shape, isLeaf]

/-- Frames of the same shape are both code or both are not. -/
theorem FrameKind.isCode_of_shape {kind kind' : FrameKind} (alike : kind.shape = kind'.shape) :
    kind.isCode = kind'.isCode := by
  cases kind <;> cases kind' <;> simp_all [shape, isCode]

/-- A construct with its shape for its kind. -/
def Frame.outline (frame : Frame) : Frame :=
  { frame with kind := frame.kind.shape }

/-- The text laid in a construct: that of its children and the run collected. -/
def Frame.laid (build : Leaf → List Char) (source : List Char) (frame : Frame) : List Char :=
  Forest.writtenBy build frame.children ++ (frame.pending.map (slice source)).getD []

/-- A construct that becomes a leaf is written as the text it keeps, every other one as its
children. -/
theorem Assembly.writtenBy_nodesOf {frame : Frame} {raw : String}
    (kept : frame.kind.isLeaf = true → raw ≠ "") (build : Leaf → List Char) :
    Forest.writtenBy build (nodesOf frame raw) =
      if frame.kind.isLeaf then raw.toList else Forest.writtenBy build frame.children := by
  rw [nodesOf]
  cases kind : frame.kind with
  | link auto url title =>
      have kept : raw ≠ "" := kept (by rw [kind]; rfl)
      cases auto <;> simp [FrameKind.isLeaf, Leaf.writtenBy, Leaf.raw, kept]
  | image url title =>
      have kept : raw ≠ "" := kept (by rw [kind]; rfl)
      simp [FrameKind.isLeaf, Leaf.writtenBy, Leaf.raw, kept]
  | codeBlock language content =>
      have kept : raw ≠ "" := kept (by rw [kind]; rfl)
      simp [FrameKind.isLeaf, Leaf.writtenBy, Leaf.raw, kept]
  | container kind => simp [FrameKind.isLeaf]
  | through => simp [FrameKind.isLeaf]
  | root => simp [FrameKind.isLeaf]

namespace Assembly

variable {a b d : Assembly} {n : Nat}

/-! ### Sound assemblies -/

/-- An assembly whose cursor and whose collected run lie between characters, the run ending at the
cursor. In a code block there may be a run that nobody looks at. -/
structure Sound (a : Assembly) : Prop where
  /-- The cursor lies between characters. -/
  cursor : IsBoundary a.source a.cursor
  /-- A run ends at the cursor. -/
  pending : a.top.kind.isCode = false → ∀ run, a.top.pending = some run →
    run.start ≤ run.stop ∧ run.stop = a.cursor ∧ IsBoundary a.source run.start

/-- An assembly goes on to a later one, in the same innermost construct. -/
structure Advances (a b : Assembly) : Prop where
  /-- The later one is sound. -/
  sound : b.Sound
  /-- The text is the same. -/
  source : b.source = a.source
  /-- The constructs around are the same, up to task markers. -/
  below : b.below.map Frame.outline = a.below.map Frame.outline
  /-- The innermost construct begins at the same place. -/
  start : b.top.start = a.top.start
  /-- The innermost construct is of the same shape. -/
  shape : b.top.kind.shape = a.top.kind.shape
  /-- The cursor does not move backwards. -/
  cursor : a.cursor ≤ b.cursor
  /-- What was passed by the cursor is laid. -/
  laid : a.top.kind.isCode = false → ∀ build,
    b.top.laid build b.source = a.top.laid build a.source ++ slice a.source ⟨a.cursor, b.cursor⟩

namespace Advances

/-- An assembly in order advances to itself. -/
theorem refl (sound : a.Sound) : a.Advances a :=
  ⟨sound, rfl, rfl, rfl, rfl, Nat.le_refl _, fun _ _ => by simp⟩

/-- One advance after another is an advance. -/
theorem trans (sound : a.Sound) (first : a.Advances b) (second : b.Advances d) : a.Advances d := by
  refine ⟨second.sound, second.source.trans first.source, second.below.trans first.below,
    second.start.trans first.start, second.shape.trans first.shape,
    Nat.le_trans first.cursor second.cursor, fun prose build => ?_⟩
  have prose' : b.top.kind.isCode = false :=
    (FrameKind.isCode_of_shape first.shape).trans prose
  have middle : IsBoundary a.source b.cursor := first.source ▸ first.sound.cursor
  have stop : IsBoundary a.source d.cursor :=
    (second.source.trans first.source) ▸ second.sound.cursor
  rw [second.laid prose', first.laid prose, first.source, List.append_assoc,
    slice_append first.cursor second.cursor sound.cursor middle stop]

end Advances

/-! ### The parts of a step -/

@[simp] theorem flush_source (a : Assembly) : a.flush.source = a.source := by
  rw [flush]
  split <;> rfl

@[simp] theorem flush_cursor (a : Assembly) : a.flush.cursor = a.cursor := by
  rw [flush]
  split <;> rfl

@[simp] theorem flush_below (a : Assembly) : a.flush.below = a.below := by
  rw [flush]
  split <;> rfl

@[simp] theorem flush_counters (a : Assembly) : a.flush.counters = a.counters := by
  rw [flush]
  split <;> rfl

@[simp] theorem flush_start (a : Assembly) : a.flush.top.start = a.top.start := by
  rw [flush]
  split <;> rfl

@[simp] theorem flush_kind (a : Assembly) : a.flush.top.kind = a.top.kind := by
  rw [flush]
  split <;> rfl

/-- After a flush no run is left. -/
@[simp] theorem flush_pending (a : Assembly) : a.flush.top.pending = none := by
  rw [flush]
  split
  · assumption
  · rfl

/-- A flush scans the run and lays nothing new. -/
@[simp] theorem flush_laid (a : Assembly) (build : Leaf → List Char) (source : List Char)
    (same : source = a.source) : a.flush.top.laid build source = a.top.laid build source := by
  subst same
  rw [flush]
  split
  · rfl
  · next run pending =>
      simp [Frame.laid, pending, flatMap_writtenBy_scanRun]

/-- A run that is scanned stands for the same text, so a scan is an advance. -/
theorem flush_advances (sound : a.Sound) : a.Advances a.flush := by
  refine ⟨⟨by simpa using sound.cursor, by simp⟩, by simp, by simp, by simp, by simp, by simp,
    fun _ _ => ?_⟩
  simp

/-- A span laid at the cursor by new children, with nothing collected before or after. -/
theorem advances_of_append {nodes : Forest} {stop : Nat} (flushed : a.top.pending = none)
    (order : a.cursor ≤ stop) (boundary : IsBoundary a.source stop)
    (written : a.top.kind.isCode = false → ∀ build,
      Forest.writtenBy build nodes = slice a.source ⟨a.cursor, stop⟩) :
    a.Advances { a.append nodes with cursor := stop } := by
  refine ⟨⟨boundary, fun _ run pending => ?_⟩, rfl, rfl, rfl, rfl, order, fun prose build => ?_⟩
  · rw [append, flushed] at pending
    cases pending
  · simp [Frame.laid, append, flushed, written prose]

@[simp] theorem markupUntil_source (a : Assembly) (stop : Nat) :
    (a.markupUntil stop).source = a.source := by
  rw [markupUntil]
  split
  · rfl
  · exact flush_source a

/-- Markup moves the cursor to its end, if that is ahead. -/
theorem markupUntil_cursor (a : Assembly) (stop : Nat) :
    (a.markupUntil stop).cursor = max a.cursor stop := by
  by_cases order : stop ≤ a.cursor
  · simp [markupUntil, order]
  · simp only [markupUntil, order, if_false]
    omega

/-- Markup up to a place between characters is an advance. -/
theorem markupUntil_advances {stop : Nat} (sound : a.Sound) (boundary : IsBoundary a.source stop) :
    a.Advances (a.markupUntil stop) := by
  rw [markupUntil]
  split
  · exact .refl sound
  · next order =>
      have flushed := flush_advances sound
      refine flushed.trans sound (advances_of_append (by simp) (by simp; omega)
        (by simpa using boundary) fun _ _ => ?_)
      simp [Leaf.writtenBy_markup]

/-- A span collected at the cursor, in a new run or in the one that ends there. -/
theorem advances_of_run {begun stop : Nat} (sound : a.Sound) (order : a.cursor ≤ stop)
    (boundary : IsBoundary a.source stop)
    (collected : a.top.kind.isCode = false → begun ≤ a.cursor ∧ IsBoundary a.source begun ∧
      (a.top.pending.map (slice a.source)).getD [] = slice a.source ⟨begun, a.cursor⟩) :
    a.Advances
      { a with cursor := stop, top := { a.top with pending := some ⟨begun, stop⟩ } } := by
  refine ⟨⟨boundary, fun prose run pending => ?_⟩, rfl, rfl, rfl, rfl, order, fun prose build => ?_⟩
  · obtain rfl := Option.some.inj pending
    obtain ⟨order', start, -⟩ := collected prose
    exact ⟨Nat.le_trans order' order, rfl, start⟩
  · obtain ⟨order', start, same⟩ := collected prose
    simp only [Frame.laid, Option.map_some, Option.getD_some, List.append_assoc]
    rw [same, slice_append order' order start sound.cursor boundary]

/-- Text is collected up to the end of its span. -/
theorem addText_advances {span : Span} (sound : a.Sound)
    (start : IsBoundary a.source span.start) (stop : IsBoundary a.source span.stop) :
    a.Advances (a.addText span) := by
  have marked := markupUntil_advances sound start
  have passed : max span.start (a.markupUntil span.start).cursor =
      (a.markupUntil span.start).cursor := by
    rw [markupUntil_cursor]
    omega
  rw [addText]
  simp only [passed]
  generalize a.markupUntil span.start = m at marked passed ⊢
  have stop' : IsBoundary m.source span.stop := marked.source ▸ stop
  by_cases order : span.stop ≤ m.cursor
  · simpa only [order, if_true] using marked
  · simp only [order, if_false]
    have order := Nat.le_of_not_le order
    refine marked.trans sound ?_
    cases pending : m.top.pending with
    | none =>
        refine advances_of_run marked.sound order stop' fun _ => ?_
        exact ⟨Nat.le_refl _, marked.sound.cursor, by simp [pending]⟩
    | some run =>
        by_cases ends : run.stop = m.cursor
        · simp only [ends, if_true]
          refine advances_of_run marked.sound order stop' fun prose => ?_
          obtain ⟨ordered, -, begins⟩ := marked.sound.pending prose run pending
          exact ⟨ends ▸ ordered, begins, by simp [pending, ← ends]⟩
        · simp only [ends, if_false]
          have flushed := flush_advances marked.sound
          refine flushed.trans marked.sound ?_
          refine advances_of_run flushed.sound (by simpa using order) (by simpa using stop')
            fun prose => ?_
          have prose' : m.top.kind.isCode = false := by simpa using prose
          exact absurd (marked.sound.pending prose' run pending).2.1 ends

/-- Text moves the cursor to its end, if that is ahead. -/
theorem addText_cursor {span : Span} (order : span.start ≤ span.stop) :
    (a.addText span).cursor = max a.cursor span.stop := by
  have marked := markupUntil_cursor a span.start
  rw [addText]
  by_cases passed : span.stop ≤ max span.start (a.markupUntil span.start).cursor
  · simp only [passed, if_true]
    omega
  · simp only [passed, if_false]
    split
    · split <;> simp <;> omega
    · simp
      omega

/-- Code is kept with its block, and nothing is said about what is laid there. -/
theorem addCode_advances {text : String} {span : Span} (sound : a.Sound)
    (code : a.top.kind.isCode = true) (start : IsBoundary a.source span.start)
    (stop : IsBoundary a.source span.stop) : a.Advances (a.addCode text span) := by
  have marked := markupUntil_advances sound start
  have code' := (FrameKind.isCode_of_shape marked.shape).trans code
  rw [addCode]
  generalize a.markupUntil span.start = m at marked code' ⊢
  refine marked.trans sound ?_
  have stop' : IsBoundary m.source span.stop := marked.source ▸ stop
  cases kind : m.top.kind with
  | codeBlock language content =>
      refine ⟨⟨marked.sound.cursor.max stop', fun prose => ?_⟩, rfl, rfl, rfl, ?_,
        Nat.le_max_left _ _, fun prose _ => ?_⟩
      · simp [FrameKind.isCode] at prose
      · simp [kind, FrameKind.shape]
      · rw [kind] at prose
        cases prose
  | _ =>
      rw [kind] at code'
      cases code'

/-- A leaf lays the part of its span that was not passed before, if it is written as that. -/
theorem addLeaf_advances {leaf : Leaf} {span : Span} (sound : a.Sound)
    (start : IsBoundary a.source span.start) (stop : IsBoundary a.source span.stop)
    (written : ∀ build, leaf.writtenBy build = (a.unread span).toList) :
    a.Advances (a.addLeaf leaf span) := by
  have marked := markupUntil_advances sound start
  have cursor := markupUntil_cursor a span.start
  simp only [unread, String.toList_ofList] at written
  rw [addLeaf]
  generalize a.markupUntil span.start = m at marked cursor ⊢
  have flushed := marked.trans sound (flush_advances marked.sound)
  refine flushed.trans sound (advances_of_append (by simp)
    (Nat.le_max_left _ _) ?_ fun _ build => ?_)
  · have stop' : IsBoundary m.source span.stop := marked.source ▸ stop
    simpa [append] using marked.sound.cursor.max stop'
  · rw [Forest.writtenBy_leaf, written]
    simp only [append, flush_cursor, flush_source, marked.source, cursor]
    rw [Nat.max_comm span.start]
    rcases Nat.le_total (max a.cursor span.start) span.stop with order | order
    · rw [Nat.max_eq_right order]
    · rw [Nat.max_eq_left order, slice_self]
      by_cases same : max a.cursor span.start = span.stop
      · rw [same, slice_self]
      · simp only [slice, ite_eq_right_iff]
        omega

/-- A leaf moves the cursor to its end, if that is ahead. -/
theorem addLeaf_cursor {leaf : Leaf} {span : Span} (order : span.start ≤ span.stop) :
    (a.addLeaf leaf span).cursor = max a.cursor span.stop := by
  simp only [addLeaf, append, flush_cursor, markupUntil_cursor]
  omega

/-! ### Task markers -/

/-- A task marker changes no frame but for what kind of item it is. -/
theorem outline_markFirstItem (complete : Bool) (frames : List Frame) :
    (markFirstItem complete frames).map Frame.outline = frames.map Frame.outline := by
  induction frames with
  | nil => rfl
  | cons frame frames ih =>
      by_cases item : frame.isPlainItem = true
      · simp only [markFirstItem, item, if_true, List.map_cons, List.cons.injEq, and_true]
        rw [Frame.isPlainItem] at item
        split at item <;> simp_all [Frame.outline, FrameKind.shape]
      · rw [markFirstItem, if_neg item, List.map_cons, List.map_cons, ih]

/-- A task marker is put at the first item from the top. -/
theorem markTask_frames (a : Assembly) (complete : Bool) :
    (a.markTask complete).top :: (a.markTask complete).below =
      markFirstItem complete (a.top :: a.below) := by
  rw [markTask]
  split
  · next none =>
      rw [markFirstItem] at none
      split at none <;> cases none
  · next marked => exact marked.symm

/-- A task marker leaves the cursor. -/
theorem markTask_cursor (a : Assembly) (complete : Bool) :
    (a.markTask complete).cursor = a.cursor := by
  rw [markTask]
  split <;> rfl

/-- Marking an item changes nothing but its kind. -/
theorem markTask_advances (sound : a.Sound) (complete : Bool) :
    a.Advances (a.markTask complete) := by
  have alike := outline_markFirstItem complete (a.top :: a.below)
  rw [markTask]
  cases marked : markFirstItem complete (a.top :: a.below) with
  | nil => exact .refl sound
  | cons top below =>
      rw [marked, List.map_cons, List.map_cons, List.cons.injEq] at alike
      obtain ⟨same, rest⟩ := alike
      simp only [Frame.outline, Frame.mk.injEq] at same
      obtain ⟨shape, start, children, pending⟩ := same
      refine ⟨⟨sound.cursor, fun prose run collected => ?_⟩, rfl, rest, start, shape,
        Nat.le_refl _, fun _ _ => ?_⟩
      · exact sound.pending ((FrameKind.isCode_of_shape shape).symm.trans prose) run
          (pending ▸ collected)
      · simp [Frame.laid, children, pending]

/-! ### Single events -/

/-- Text is code if the frame on top is. -/
theorem inCodeBlock_eq (a : Assembly) : a.inCodeBlock = a.top.kind.isCode := by
  unfold inCodeBlock FrameKind.isCode
  rfl

/-- A span that ends after the cursor and after its own start has some text left. -/
theorem unread_ne_empty {span : Span} (sound : a.Sound)
    (start : IsBoundary a.source span.start) (stop : IsBoundary a.source span.stop)
    (left : a.cursor < span.stop) (filled : span.start < span.stop) : a.unread span ≠ "" := by
  have some := slice_ne_nil (Nat.max_lt.mpr ⟨filled, left⟩) (start.max sound.cursor) stop
  simpa [unread] using some

/-- An event that neither begins nor ends a construct is taken into account, and the cursor goes
no further than to its end. -/
theorem advances_of_plain {e : Located} (sound : a.Sound) (plain : e.event.isPlain = true)
    (order : e.span.start ≤ e.span.stop) (start : IsBoundary a.source e.span.start)
    (stop : IsBoundary a.source e.span.stop)
    (leaf : e.event.isLeaf = true → a.cursor < e.span.stop ∧ e.span.start < e.span.stop) :
    ∃ b, a.step e = .ok b ∧ a.Advances b ∧ b.cursor ≤ max a.cursor e.span.stop := by
  obtain ⟨event, span⟩ := e
  cases event with
  | start _ => cases plain
  | stop => cases plain
  | text text =>
      refine ⟨_, rfl, ?_⟩
      rw [inCodeBlock_eq]
      cases code : a.top.kind.isCode with
      | true =>
          refine ⟨addCode_advances sound code start stop, ?_⟩
          simp only [if_true, addCode, markupUntil_cursor] at order ⊢
          omega
      | false =>
          exact ⟨addText_advances sound start stop, Nat.le_of_eq (addText_cursor order)⟩
  | softBreak =>
      exact ⟨_, rfl, addText_advances sound start stop, Nat.le_of_eq (addText_cursor order)⟩
  | hardBreak =>
      exact ⟨_, rfl, markupUntil_advances sound stop, Nat.le_of_eq (markupUntil_cursor _ _)⟩
  | code code =>
      have kept := unread_ne_empty sound start stop (leaf rfl).1 (leaf rfl).2
      exact ⟨_, rfl, addLeaf_advances sound start stop (Leaf.writtenBy_of_raw kept),
        Nat.le_of_eq (addLeaf_cursor order)⟩
  | html =>
      exact ⟨_, rfl, addLeaf_advances sound start stop (Leaf.writtenBy_markup _),
        Nat.le_of_eq (addLeaf_cursor order)⟩
  | rule =>
      have kept := unread_ne_empty sound start stop (leaf rfl).1 (leaf rfl).2
      exact ⟨_, rfl, addLeaf_advances sound start stop (Leaf.writtenBy_of_raw kept),
        Nat.le_of_eq (addLeaf_cursor order)⟩
  | taskMarker complete =>
      have marked := markTask_advances sound complete
      refine ⟨_, rfl, marked.trans sound (markupUntil_advances marked.sound ?_), ?_⟩
      · exact marked.source ▸ stop
      · rw [markupUntil_cursor, markTask_cursor]
  | other => exact ⟨_, rfl, .refl sound, Nat.le_max_left _ _⟩

/-! ### Constructs -/

/-- A construct that becomes a leaf has a frame for a leaf. -/
theorem isLeaf_frameKind (a : Assembly) (opening : Opening) :
    (a.frameKind opening).isLeaf = opening.isLeaf := by
  cases opening with
  | item =>
      simp only [frameKind]
      split <;> rfl
  | _ => rfl

/-- A construct moves the cursor to where it begins, if that is ahead. -/
theorem openFrame_cursor (a : Assembly) (opening : Opening) (start : Nat) :
    (a.openFrame opening start).cursor = max a.cursor start := by
  simp [openFrame, markupUntil_cursor]

@[simp] theorem openFrame_source (a : Assembly) (opening : Opening) (start : Nat) :
    (a.openFrame opening start).source = a.source := by
  simp [openFrame]

/-- An opened construct begins at the cursor. -/
theorem openFrame_start (a : Assembly) (opening : Opening) (start : Nat) :
    (a.openFrame opening start).top.start = (a.openFrame opening start).cursor := by
  simp only [openFrame, flush_cursor, markupUntil_cursor]
  omega

/-- An assembly with a construct opened is in order. -/
theorem openFrame_sound (opening : Opening) {start : Nat} (sound : a.Sound)
    (boundary : IsBoundary a.source start) : (a.openFrame opening start).Sound := by
  have marked := markupUntil_advances sound boundary
  refine ⟨?_, fun _ run pending => ?_⟩
  · simpa [openFrame] using marked.sound.cursor
  · simp [openFrame] at pending

/-- What a stop does where it succeeds. -/
theorem closeFrame_eq_ok {stop : Nat} (closed : a.closeFrame stop = .ok b) :
    ∃ frame raw, (a.markupUntil stop).flush.below = frame :: b.below ∧ b.source = a.source ∧
      b.cursor = max (a.markupUntil stop).flush.cursor stop ∧
      b.top = { frame with
        children := frame.children ++ nodesOf (a.markupUntil stop).flush.top raw } := by
  rw [closeFrame] at closed
  simp only at closed
  split at closed
  · cases closed
  · next frame below around =>
      obtain rfl := Except.ok.inj closed
      exact ⟨frame, _, around, by simp, rfl, rfl⟩

/-- The nodes that a construct leaves behind are written as the text from its start to the cursor:
by the same children, or as the text it keeps where it becomes a leaf. -/
theorem writtenBy_nodesOf_of_advances (stop : Nat) (sound : a.Sound)
    (begun : a.top.start = a.cursor) (fresh : ∀ build, a.top.laid build a.source = [])
    (during : a.Advances b) (flushed : b.top.pending = none)
    (leaf : a.top.kind.isLeaf = true → a.cursor < stop ∧ b.cursor = stop)
    (build : Leaf → List Char) :
    Forest.writtenBy build
        (nodesOf b.top (String.ofList (slice b.source ⟨b.top.start, max stop b.top.start⟩))) =
      slice a.source ⟨a.cursor, b.cursor⟩ := by
  have shape := FrameKind.isLeaf_of_shape during.shape
  have stop' : IsBoundary a.source b.cursor := during.source ▸ during.sound.cursor
  rw [during.source, during.start, begun]
  cases kept : a.top.kind.isLeaf with
  | true =>
      obtain ⟨filled, ends⟩ := leaf kept
      rw [ends] at stop' ⊢
      have some := slice_ne_nil filled sound.cursor stop'
      rw [Nat.max_eq_left (Nat.le_of_lt filled), writtenBy_nodesOf fun _ => by simpa using some]
      simp [shape, kept]
  | false =>
      have prose : a.top.kind.isCode = false := by
        cases kind : a.top.kind with
        | codeBlock _ _ => simp [kind, FrameKind.isLeaf] at kept
        | _ => rfl
      have laid := during.laid prose build
      rw [fresh, Frame.laid, flushed] at laid
      rw [writtenBy_nodesOf fun becomes => by simp [shape, kept] at becomes]
      simpa [shape, kept] using laid

/-- **A construct advances as a whole**, from before its start to after its stop. -/
theorem advances_of_construct {opening : Opening} {start stop : Nat} {inner : Assembly}
    (sound : a.Sound) (begins : IsBoundary a.source start) (ends : IsBoundary a.source stop)
    (during : (a.openFrame opening start).Advances inner)
    (leaf : opening.isLeaf = true → max a.cursor start < stop ∧ inner.cursor ≤ stop) :
    ∃ b, inner.closeFrame stop = .ok b ∧ a.Advances b ∧ b.cursor = max inner.cursor stop := by
  have marked := markupUntil_advances sound begins
  have outer := marked.trans sound (flush_advances marked.sound)
  have flushed := flush_pending (a.markupUntil start)
  -- The construct is closed where its own children are complete.
  have opened := openFrame_sound opening sound begins
  have ends' : IsBoundary inner.source stop := by
    rw [during.source, openFrame_source]
    exact ends
  have marked' := markupUntil_advances during.sound ends'
  have closed := (during.trans opened marked').trans opened (flush_advances marked'.sound)
  have flushed' := flush_pending (inner.markupUntil stop)
  have cursor' : (inner.markupUntil stop).flush.cursor = max inner.cursor stop := by
    rw [flush_cursor, markupUntil_cursor]
  have written := writtenBy_nodesOf_of_advances stop opened (openFrame_start a _ _)
    (by simp [openFrame, Frame.laid]) closed flushed' fun kept => by
      have kept : opening.isLeaf = true := isLeaf_frameKind a opening ▸ kept
      obtain ⟨filled, ends⟩ := leaf kept
      rw [openFrame_cursor, cursor', Nat.max_eq_right ends]
      exact ⟨filled, rfl⟩
  have begun : (a.openFrame opening start).cursor = (a.markupUntil start).flush.cursor := rfl
  have around := closed.below
  have source := closed.source
  have passed := closed.cursor
  have sound' := closed.sound.cursor
  rw [closeFrame]
  simp only [openFrame_source, begun] at written source passed
  simp only [openFrame] at around
  simp only
  generalize (inner.markupUntil stop).flush = m' at *
  generalize (a.markupUntil start).flush = m at *
  cases same : m'.below with
  | nil => simp [same] at around
  | cons frame below =>
      rw [same, List.map_cons, List.map_cons, List.cons.injEq] at around
      obtain ⟨alike, around⟩ := around
      simp only [Frame.outline, Frame.mk.injEq] at alike
      obtain ⟨shape, start', children, pending⟩ := alike
      have stays : max m'.cursor stop = m'.cursor := by omega
      refine ⟨_, rfl, outer.trans sound ?_, ?_⟩
      · refine ⟨⟨?_, fun _ run collected => ?_⟩, ?_, around, start', shape, ?_, fun _ _ => ?_⟩
        · rw [stays]
          exact sound'
        · simp [pending, flushed] at collected
        · exact source.trans outer.source.symm
        · rw [stays]
          exact passed
        · simp only [Frame.laid, Forest.writtenBy_append, children, pending, flushed, written,
            stays, outer.source]
          simp
      · rw [stays, cursor']

/-! ### Streams -/

/-- Events are processed one part after another. -/
theorem run_append (a : Assembly) (events events' : List Located) :
    a.run (events ++ events') = (a.run events).bind (·.run events') := by
  induction events generalizing a with
  | nil => rfl
  | cons e events ih =>
      rw [List.cons_append, run, run]
      cases a.step e with
      | error _ => rfl
      | ok b => exact ih b

/-- A stream is processed if its first event is, and then the others. -/
theorem run_cons_eq_ok {e : Located} {events : List Located} :
    a.run (e :: events) = .ok b ↔ ∃ d, a.step e = .ok d ∧ d.run events = .ok b := by
  rw [run]
  cases a.step e with
  | error _ => simp [Except.bind]
  | ok d => simp [Except.bind]

/-- A construct whose inside is read is read as a whole, and what comes after it goes on from
there. -/
theorem run_construct {opening : Opening} {span span' : Span} {inner : List Located}
    (inside : (a.openFrame opening span.start).run inner = .ok b)
    (closed : b.closeFrame span'.stop = .ok d) (rest : List Located) :
    a.run (⟨.start opening, span⟩ :: (inner ++ ⟨.stop, span'⟩ :: rest)) = d.run rest := by
  have first : a.step ⟨.start opening, span⟩ = .ok (a.openFrame opening span.start) := rfl
  have last : b.step ⟨.stop, span'⟩ = .ok d := closed
  rw [run, first, Except.bind, run_append, inside, Except.bind, run, last]
  rfl

/-- Whether a cursor was led to where it stands by some of the events before. -/
def LedBy (before : List Located) (cursor : Nat) : Prop :=
  ∀ n, (∀ e ∈ before, e.reach ≤ n) → cursor ≤ n

/-- A cursor that events have led is before every place that is behind all of them. -/
theorem LedBy.lt {before : List Located} {cursor stop : Nat} (led : LedBy before cursor)
    (positive : 0 < stop) (before_lt : ∀ e ∈ before, e.reach < stop) : cursor < stop := by
  have := led (stop - 1) fun e member => Nat.le_sub_one_of_lt (before_lt e member)
  omega

/-- An assembly goes on to a later one by a run of events, and the cursor goes no further than
they reach. -/
structure RunsTo (a : Assembly) (events : List Located) (b : Assembly) : Prop where
  /-- The run succeeds. -/
  run : a.run events = .ok b
  /-- Nothing is lost. -/
  advances : a.Advances b
  /-- The cursor is led by the events, or stays where it is. -/
  led : ∀ n, a.cursor ≤ n → (∀ e ∈ events, e.reach ≤ n) → b.cursor ≤ n

namespace RunsTo

variable {before events events' : List Located}

/-- No events lead to the same assembly. -/
theorem nil (sound : a.Sound) : a.RunsTo [] a :=
  ⟨rfl, .refl sound, fun _ reached _ => reached⟩

/-- A run after a run is a run. -/
theorem append (sound : a.Sound) (first : a.RunsTo events b) (second : b.RunsTo events' d) :
    a.RunsTo (events ++ events') d := by
  refine ⟨?_, first.advances.trans sound second.advances, fun n reached reached' => ?_⟩
  · rw [run_append, first.run]
    exact second.run
  · have reached := first.led n reached fun e member => reached' e (by simp [member])
    exact second.led n reached fun e member => reached' e (by simp [member])

/-- What led the cursor to where it stands leads it on, together with the events of the run. -/
theorem ledBy (runs : a.RunsTo events b) (led : LedBy before a.cursor) :
    LedBy (before ++ events) b.cursor := by
  intro n reached
  have reached' := led n fun e member => reached e (by simp [member])
  exact runs.led n reached' fun e member => reached e (by simp [member])

end RunsTo

/-- A plain event reaches as far as its span. -/
theorem reach_of_plain {e : Located} (plain : e.event.isPlain = true) :
    e.reach = e.span.stop := by
  obtain ⟨event, span⟩ := e
  cases event with
  | start _ => cases plain
  | _ => rfl

/-- No event reaches further than its span. -/
theorem reach_le {e : Located} (order : e.span.start ≤ e.span.stop) : e.reach ≤ e.span.stop := by
  obtain ⟨event, span⟩ := e
  cases event with
  | start _ => exact order
  | _ => exact Nat.le_refl _

/-- An event that neither begins nor ends a construct, at its place in a faithful stream. -/
theorem runsTo_of_plain {all before after : List Located} {e : Located}
    (faithful : Faithful a.source all) (place : all = before ++ e :: after)
    (plain : e.event.isPlain = true) (sound : a.Sound) (led : LedBy before a.cursor) :
    ∃ b, a.RunsTo [e] b := by
  have member : e ∈ all := by simp [place]
  obtain ⟨start, stop⟩ := faithful.boundary e member
  have leaf : e.event.isLeaf = true → a.cursor < e.span.stop ∧ e.span.start < e.span.stop := by
    intro kept
    obtain ⟨filled, ahead⟩ := faithful.leaf before e after kept place
    exact ⟨led.lt (by omega) ahead, filled⟩
  obtain ⟨b, stepped, advances, moved⟩ :=
    advances_of_plain sound plain (faithful.ordered e member) start stop leaf
  refine ⟨b, ?_, advances, fun n reached reached' => ?_⟩
  · rw [Assembly.run, stepped]
    rfl
  · have := reached' e (by simp)
    rw [reach_of_plain plain] at this
    omega

/-- A construct at its place in a faithful stream, where `b` is what the events inside of it lead
to. -/
theorem runsTo_of_construct {all before inner after : List Located} {opening : Opening}
    {span span' : Span} (faithful : Faithful a.source all) (inside : Balanced inner)
    (place : all = before ++ ⟨.start opening, span⟩ :: (inner ++ ⟨.stop, span'⟩ :: after))
    (sound : a.Sound) (led : LedBy before a.cursor)
    (during : (a.openFrame opening span.start).RunsTo inner b) :
    ∃ d, a.RunsTo (⟨.start opening, span⟩ :: (inner ++ [⟨.stop, span'⟩])) d := by
  have construct : IsConstruct all before opening span inner span' := ⟨inside, after, place⟩
  obtain ⟨start, -⟩ := faithful.boundary ⟨.start opening, span⟩ (by simp [place])
  obtain ⟨-, stop⟩ := faithful.boundary ⟨.stop, span'⟩ (by simp [place])
  have moved := during.led
  rw [openFrame_cursor] at moved
  have leaf : opening.isLeaf = true →
      max a.cursor span.start < span'.stop ∧ b.cursor ≤ span'.stop := by
    intro kept
    obtain ⟨filled, ahead⟩ := faithful.construct _ _ _ _ _ kept construct
    have passed := led.lt (by omega) ahead
    refine ⟨by omega, moved _ (by omega) fun e member => ?_⟩
    have order := faithful.ordered e (by simp [place, member])
    exact Nat.le_trans (reach_le order) (faithful.inside _ _ _ _ _ kept construct e member)
  obtain ⟨d, closed, advances, closedAt⟩ :=
    advances_of_construct sound start stop during.advances leaf
  refine ⟨d, ?_, advances, fun n reached reached' => ?_⟩
  · exact run_construct during.run closed []
  · have first : span.start ≤ n := reached' ⟨.start opening, span⟩ (by simp)
    have last : span'.stop ≤ n := reached' ⟨.stop, span'⟩ (by simp)
    have inside := moved n (by omega) fun e member => reached' e (by simp [member])
    exact closedAt ▸ Nat.max_le.mpr ⟨inside, last⟩

/-- **A balanced stream advances.** The induction is on how the stream is balanced, at any place
of a faithful stream; the events before it are those that led the cursor to where it stands. -/
theorem runsTo_of_balanced {source : List Char} {all : List Located}
    (faithful : Faithful source all) {events : List Located} (balanced : Balanced events) :
    ∀ (before after : List Located) (a : Assembly), all = before ++ (events ++ after) →
      a.Sound → a.source = source → LedBy before a.cursor → ∃ b, a.RunsTo events b := by
  induction balanced with
  | nil => exact fun before after a place sound same led => ⟨a, .nil sound⟩
  | @plain e rest plain _ ih =>
      intro before after a place sound same led
      subst same
      obtain ⟨b, stepped⟩ := runsTo_of_plain faithful place plain sound led
      obtain ⟨d, further⟩ := ih (before ++ [e]) after b (by simp [place]) stepped.advances.sound
        stepped.advances.source (stepped.ledBy led)
      exact ⟨d, stepped.append sound further⟩
  | @nested opening span span' inner rest inside _ ihInner ihRest =>
      intro before after a place sound same led
      subst same
      have place' : all = before ++ ⟨.start opening, span⟩ ::
          (inner ++ ⟨.stop, span'⟩ :: (rest ++ after)) := by
        simp [place]
      obtain ⟨start, -⟩ := faithful.boundary ⟨.start opening, span⟩ (by simp [place])
      -- The start leads the cursor before the events inside do.
      have led' : LedBy (before ++ [⟨.start opening, span⟩])
          (a.openFrame opening span.start).cursor := by
        intro n reached
        have := led n fun e member => reached e (by simp [member])
        have : span.start ≤ n := reached ⟨.start opening, span⟩ (by simp)
        rw [openFrame_cursor]
        omega
      obtain ⟨b, during⟩ := ihInner (before ++ [⟨.start opening, span⟩])
        (⟨.stop, span'⟩ :: (rest ++ after)) _ (by simp [place'])
        (openFrame_sound opening sound start) (openFrame_source ..) led'
      obtain ⟨d, whole⟩ := runsTo_of_construct faithful inside place' sound led during
      obtain ⟨z, further⟩ :=
        ihRest (before ++ (⟨.start opening, span⟩ :: (inner ++ [⟨.stop, span'⟩]))) after d
          (by simp [place']) whole.advances.sound whole.advances.source (whole.ledBy led)
      refine ⟨z, ?_⟩
      simpa using whole.append sound further

/-- An assembly in which only the forest itself is open gives the forest, which is written as the
whole text. -/
theorem exists_finish {source : List Char} (advances : Advances { source } a) :
    ∃ nodes, a.finish = .ok nodes ∧ ∀ build, Forest.writtenBy build nodes = source := by
  have sound : Sound { source } := ⟨isBoundary_zero source, fun _ _ pending => by cases pending⟩
  have marked := markupUntil_advances advances.sound (isBoundary_byteLength a.source)
  have whole := (advances.trans sound marked).trans sound (flush_advances marked.sound)
  have flushed := flush_pending (a.markupUntil (byteLength a.source))
  have cursor : (a.markupUntil (byteLength a.source)).flush.cursor = byteLength source := by
    have := advances.sound.cursor.le_byteLength
    rw [flush_cursor, markupUntil_cursor, Nat.max_eq_right this, advances.source]
  unfold finish
  simp only
  generalize (a.markupUntil (byteLength a.source)).flush = m at whole flushed cursor ⊢
  have closed : m.below = [] := by simpa using whole.below
  refine ⟨m.top.children, by simp [closed], fun build => ?_⟩
  have laid := whole.laid rfl build
  rw [cursor, slice_full] at laid
  simpa [Frame.laid, flushed] using laid

end Assembly

/-- A stream that is faithful to a text is read, and every character of the text is in a leaf. -/
theorem exists_writtenBy_eq {source : String} {events : List Located}
    (faithful : Faithful source.toList events) :
    ∃ nodes, Forest.ofEvents source events = .ok nodes ∧
      ∀ build, nodes.writtenBy build = source.toList := by
  have sound : Assembly.Sound { source := source.toList } :=
    ⟨isBoundary_zero _, fun _ _ pending => by cases pending⟩
  obtain ⟨a, run, advances, -⟩ :=
    Assembly.runsTo_of_balanced faithful faithful.balanced [] [] { source := source.toList }
      (by simp) sound rfl (fun _ _ => Nat.zero_le _)
  obtain ⟨nodes, finished, written⟩ := Assembly.exists_finish advances
  refine ⟨nodes, ?_, written⟩
  rw [Forest.ofEvents, run, Except.bind]
  exact finished

/-- A forest read from a stream that is faithful to a text is written as the text. -/
theorem Forest.toMarkdownBy_of_read {source : String} {events : List Located} {nodes : Forest}
    (faithful : Faithful source.toList events) (read : Forest.ofEvents source events = .ok nodes)
    (build : Leaf → List Char) : nodes.toMarkdownBy build = source := by
  obtain ⟨nodes', read', written⟩ := exists_writtenBy_eq faithful
  obtain rfl := Except.ok.inj (read.symm.trans read')
  rw [toMarkdownBy_eq, written, String.ofList_toList]

/-- **Reading loses nothing.** A stream that is faithful to a text is read into a forest, and the
forest is written as the text, by any writer. -/
theorem ofEvents_lossless {source : String} {events : List Located}
    (faithful : Faithful source.toList events) :
    ∃ nodes, Forest.ofEvents source events = .ok nodes ∧
      ∀ build, nodes.toMarkdownBy build = source := by
  obtain ⟨nodes, read, -⟩ := exists_writtenBy_eq faithful
  exact ⟨nodes, read, nodes.toMarkdownBy_of_read faithful read⟩

/-- The events of a link and a code span with a gap between them. -/
def linkAndCode : List Located :=
  [⟨.start (.link false "u" ""), ⟨0, 6⟩⟩, ⟨.text "b", ⟨1, 2⟩⟩, ⟨.stop, ⟨0, 6⟩⟩,
    ⟨.code "c", ⟨7, 10⟩⟩]

/-- The events of a link and a code span are faithful to the text. -/
theorem linkAndCode_faithful : Faithful "[b](u) `c`".toList linkAndCode := by
  have only : ∀ before opening span inner span',
      IsConstruct linkAndCode before opening span inner span' →
        before = [] ∧ span = ⟨0, 6⟩ ∧ inner = [⟨.text "b", ⟨1, 2⟩⟩] ∧ span' = ⟨0, 6⟩ := by
    rintro before opening span inner span' ⟨-, after, place⟩
    simp only [linkAndCode, List.cons_eq_append_iff, List.cons.injEq, Located.mk.injEq,
      Event.start.injEq, List.append_eq_cons_iff, reduceCtorEq, false_and, and_false, true_and,
      List.nil_eq, List.append_eq_nil_iff, exists_const, or_self, or_false, false_or,
      and_self] at place
    obtain ⟨rfl, ⟨-, rfl⟩, inner, rfl, rfl, rfl, -⟩ := place
    exact ⟨rfl, rfl, rfl, rfl⟩
  refine ⟨.nested (.plain rfl .nil) (.plain rfl .nil), by decide, by decide, by decide, ?_, ?_, ?_⟩
  · intro before opening span inner span' _ construct
    obtain ⟨rfl, rfl, rfl, rfl⟩ := only _ _ _ _ _ construct
    decide
  · intro before opening span inner span' _ construct
    obtain ⟨rfl, rfl, rfl, rfl⟩ := only _ _ _ _ _ construct
    decide
  · intro before e after kept place
    simp only [linkAndCode, List.cons_eq_append_iff, List.cons.injEq, List.nil_eq,
      List.append_eq_nil_iff, reduceCtorEq, and_false, exists_const, or_false] at place
    rcases place with ⟨-, rfl, -⟩ | ⟨_, rfl, ⟨-, rfl, -⟩ | ⟨_, rfl, ⟨-, rfl, -⟩ |
      ⟨_, rfl, rfl, rfl, -⟩⟩⟩
    · cases kept
    · cases kept
    · cases kept
    · decide

/-- The gap becomes markup, and nothing of the link or the code is lost. -/
theorem ofEvents_lossless_linkAndCode :
    ∃ nodes, Forest.ofEvents "[b](u) `c`" linkAndCode = .ok nodes ∧
      ∀ build, nodes.toMarkdownBy build = "[b](u) `c`" :=
  ofEvents_lossless linkAndCode_faithful

end TaggedMemos
