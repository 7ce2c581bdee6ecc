import TaggedMemos.Forest.Event
import TaggedMemos.Forest.Scan

/-!
# Forests from Events

The forest of a text is assembled from the events of its markdown. Every byte of the text ends
up in one leaf. `cursor` divides the text: what lies before it is in the tree already. Text
events are collected into one run for as long as they follow each other without a gap, and a
run is scanned for tags and embeds when something else comes. What lies between events becomes
markup.

Links, images and code blocks are leaves: what is assembled inside them is dropped, and the
leaf keeps the text from its beginning to its end. A construct that leaves no trace in the
forest passes its children on to the container around it.

The bottom of the stack of open constructs is a field of its own, so the stack is never empty.
Assembly fails exactly when starts and stops do not match.
-/

namespace TaggedMemos

open Text

/-- Why events do not make a forest. -/
inductive ParseError where
  /-- A stop without a start; the end of its span. -/
  | unbalancedStop (offset : Nat)
  /-- Starts without a stop; their number. -/
  | unclosed (count : Nat)
  deriving DecidableEq, Repr

/-- The wording of a failure. -/
def ParseError.message : ParseError → String
  | unbalancedStop offset => "unbalanced end event at offset " ++ toString offset
  | unclosed count => toString count ++ " container(s) left open at end of input"

/-- What an open construct is to become. -/
inductive FrameKind where
  /-- The forest itself. -/
  | root
  /-- A container. -/
  | container (kind : ContainerKind)
  /-- A link leaf. -/
  | link (auto : Bool) (url title : String)
  /-- An image leaf. -/
  | image (url title : String)
  /-- A code block leaf, with the code collected so far. -/
  | codeBlock (language : String) (content : List Char)
  /-- Nothing: its children go to the construct around it. -/
  | through
  deriving DecidableEq, Repr

/-- An open construct. -/
structure Frame where
  /-- What it is to become. -/
  kind : FrameKind
  /-- Where its text begins. -/
  start : Nat
  /-- Its children so far. -/
  children : Forest := []
  /-- The run of text not scanned yet. -/
  pending : Option Span := none

/-- Whether a construct is a list item without a task marker. -/
def Frame.isPlainItem (frame : Frame) : Bool :=
  match frame.kind with
  | .container .bulletItem | .container (.orderedItem _) => true
  | _ => false

/-- A forest being assembled. -/
structure Assembly where
  /-- The text the events belong to. -/
  source : List Char
  /-- Everything before this offset is in the tree. -/
  cursor : Nat := 0
  /-- The innermost open construct. -/
  top : Frame := { kind := .root, start := 0 }
  /-- The constructs around it, innermost first. -/
  below : List Frame := []
  /-- The number of the next item of each open list, innermost first; none for bullets. -/
  counters : List (Option UInt64) := []

/-- The text a reader sees of a node, markup dropped. -/
def Leaf.plainText : Leaf → List Char
  | .text t | .code t _ | .link t _ _ _ => t.toList
  | .tag raw => '#' :: raw.toList
  | .embed resource => "![[".toList ++ resource.toList ++ "]]".toList
  | .autoLink url _ => url.toList
  | .image alt _ _ _ => alt.toList
  | .codeBlock _ content _ => content.toList
  | .rule _ | .markup _ => []

/-- The text a reader sees of a forest, markup dropped. -/
def Forest.plainText (nodes : Forest) : String :=
  String.ofList (nodes.leaves.flatMap Leaf.plainText)

namespace Assembly

/-! ### Leaves -/

/-- The part of a span that is not in the tree yet. -/
def unread (a : Assembly) (span : Span) : String :=
  String.ofList (slice a.source ⟨max span.start a.cursor, span.stop⟩)

/-- Appends nodes to the innermost open construct. -/
def append (a : Assembly) (nodes : Forest) : Assembly :=
  { a with top := { a.top with children := a.top.children ++ nodes } }

/-- Scans the collected run of text, if there is one. -/
def flush (a : Assembly) : Assembly :=
  match a.top.pending with
  | none => a
  | some run =>
    let escaped := charBefore? a.source run.start == some '\\'
    let leaves := scanRun escaped (slice a.source run)
    { a with
      top := { a.top with
        pending := none
        children := a.top.children ++ leaves.map Node.leaf } }

/-- Records everything from the cursor up to `stop` as markup. -/
def markupUntil (a : Assembly) (stop : Nat) : Assembly :=
  if stop ≤ a.cursor then a
  else
    let markup := String.ofList (slice a.source ⟨a.cursor, stop⟩)
    { a.flush.append [.leaf (.markup markup)] with cursor := stop }

/-- Adds a span to the collected run, or begins a new run when the two do not meet. -/
def addText (a : Assembly) (span : Span) : Assembly :=
  let a := a.markupUntil span.start
  let start := max span.start a.cursor
  if span.stop ≤ start then a
  else
    match a.top.pending with
    | some run =>
      if run.stop = start then
        { a with
          cursor := span.stop
          top := { a.top with pending := some ⟨run.start, span.stop⟩ } }
      else
        let a := a.flush
        { a with
          cursor := span.stop
          top := { a.top with pending := some ⟨start, span.stop⟩ } }
    | none =>
      { a with
        cursor := span.stop
        top := { a.top with pending := some ⟨start, span.stop⟩ } }

/-- Adds code to the open code block. -/
def addCode (a : Assembly) (text : String) (span : Span) : Assembly :=
  let a := a.markupUntil span.start
  let kind :=
    match a.top.kind with
    | .codeBlock language content => .codeBlock language (content ++ text.toList)
    | kind => kind
  { a with cursor := max a.cursor span.stop, top := { a.top with kind } }

/-- Appends a leaf that stands for a span. -/
def addLeaf (a : Assembly) (leaf : Leaf) (span : Span) : Assembly :=
  let a := ((a.markupUntil span.start).flush).append [.leaf leaf]
  { a with cursor := max a.cursor span.stop }

/-! ### Containers -/

/-- What an opening becomes; an item takes the next number of its list. -/
def frameKind (a : Assembly) : Opening → FrameKind
  | .paragraph => .container .paragraph
  | .heading level => .container (.heading level)
  | .quote => .container .quote
  | .codeBlock info => .codeBlock (info.getD "") []
  | .list first => .container (.list first.isSome)
  | .item =>
    match a.counters with
    | some next :: _ => .container (.orderedItem next)
    | _ => .container .bulletItem
  | .emphasis => .container .italic
  | .strong => .container .bold
  | .link auto url title => .link auto url title
  | .image url title => .image url title
  | .other => .through

/-- The counters after an opening: a list brings its own, an item uses one number up. Zero comes
after the largest number. -/
def countersAfter (a : Assembly) : Opening → List (Option UInt64)
  | .list first => first :: a.counters
  | .item =>
    match a.counters with
    | some next :: outer => some (next + 1) :: outer
    | counters => counters
  | _ => a.counters

/-- Opens a construct at an offset. -/
def openFrame (a : Assembly) (opening : Opening) (start : Nat) : Assembly :=
  let kind := a.frameKind opening
  let counters := a.countersAfter opening
  let a := (a.markupUntil start).flush
  { a with
    counters
    top := { kind, start := max start a.cursor }
    below := a.top :: a.below }

/-- A text without one line feed at its end. -/
def withoutLastNewline (cs : List Char) : List Char :=
  match cs.reverse with
  | '\n' :: before => before.reverse
  | _ => cs

/-- The nodes a finished construct leaves behind; `raw` is its text. -/
def nodesOf (frame : Frame) (raw : String) : Forest :=
  match frame.kind with
  | .container kind => [.container kind frame.children]
  | .link true url _ => [.leaf (.autoLink url raw)]
  | .link false url title => [.leaf (.link (Forest.plainText frame.children) url title raw)]
  | .image url title => [.leaf (.image (Forest.plainText frame.children) url title raw)]
  | .codeBlock language content =>
    [.leaf (.codeBlock language (String.ofList (withoutLastNewline content)) raw)]
  | .through | .root => frame.children

/-- Closes the innermost construct at an offset. -/
def closeFrame (a : Assembly) (stop : Nat) : Except ParseError Assembly :=
  let a := (a.markupUntil stop).flush
  match a.below with
  | [] => .error (.unbalancedStop stop)
  | frame :: below =>
    let raw := String.ofList (slice a.source ⟨a.top.start, max stop a.top.start⟩)
    let counters :=
      match a.top.kind with
      | .container (.list _) => a.counters.tail
      | _ => a.counters
    let nodes := nodesOf a.top raw
    .ok
      { a with
        cursor := max a.cursor stop
        counters
        top := { frame with children := frame.children ++ nodes }
        below }

/-- Makes the first list item without a task marker a task item. -/
def markFirstItem (complete : Bool) : List Frame → List Frame
  | [] => []
  | frame :: frames =>
    if frame.isPlainItem then
      { frame with kind := .container (.taskItem complete) } :: frames
    else frame :: markFirstItem complete frames

/-- Makes the innermost open list item without a task marker a task item. -/
def markTask (a : Assembly) (complete : Bool) : Assembly :=
  match markFirstItem complete (a.top :: a.below) with
  | [] => a
  | top :: below => { a with top, below }

/-! ### Events -/

/-- Whether the innermost open construct is a code block. -/
def inCodeBlock (a : Assembly) : Bool :=
  match a.top.kind with
  | .codeBlock .. => true
  | _ => false

/-- Takes one event into account. -/
def step (a : Assembly) (located : Located) : Except ParseError Assembly :=
  let span := located.span
  match located.event with
  | .start opening => .ok (a.openFrame opening span.start)
  | .stop => a.closeFrame span.stop
  | .text text => .ok (if a.inCodeBlock then a.addCode text span else a.addText span)
  | .softBreak => .ok (a.addText span)
  | .code code => .ok (a.addLeaf (.code code (a.unread span)) span)
  | .html => .ok (a.addLeaf (.text (a.unread span)) span)
  | .hardBreak => .ok (a.markupUntil span.stop)
  | .rule => .ok (a.addLeaf (.rule (a.unread span)) span)
  | .taskMarker complete => .ok ((a.markTask complete).markupUntil span.stop)
  | .other => .ok a

/-- Takes a list of events into account. -/
def run (a : Assembly) : List Located → Except ParseError Assembly
  | [] => .ok a
  | located :: rest => (a.step located).bind (run · rest)

/-- The forest, when nothing is left open. -/
def finish (a : Assembly) : Except ParseError Forest :=
  let a := (a.markupUntil (byteLength a.source)).flush
  if a.below.isEmpty then .ok a.top.children else .error (.unclosed a.below.length)

end Assembly

/-- The forest assembled from the events of a text. -/
def Forest.ofEvents (source : String) (events : List Located) : Except ParseError Forest :=
  let start : Assembly := { source := source.toList }
  (start.run events).bind Assembly.finish

end TaggedMemos
