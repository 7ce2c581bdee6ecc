import TaggedMemos.Markdown.Autolink
import TaggedMemos.Markdown.Definition

/-!
# Links, Code and HTML

The tokens of a paragraph or heading are read once from left to right. Code spans, HTML and
addresses in angle brackets take all tokens up to their end. A closing bracket looks for the
opening bracket before it: when the two hold a link or an image, what lies between them goes
into it; otherwise both are text. There are no links within links. Runs of asterisks and
underscores stay what they are here.

In a tight item there may be blocks between the tokens. Code spans end before a block, but HTML,
targets and labels may reach into blocks or beyond them; such a block is cut or left out.
-/

namespace TaggedMemos.Markdown

open Text

/-- A part of a paragraph or heading, runs of asterisks and underscores unresolved. -/
inductive Inline where
  /-- What has no parts: text, a run, a break or a task marker. -/
  | token (token : Token)
  /-- A code span. -/
  | code (code : String) (span : Span)
  /-- HTML. -/
  | html (span : Span)
  /-- A link, or with `auto` an address in angle brackets. -/
  | link (auto : Bool) (target : Target) (span : Span) (children : List Inline)
  /-- An image. -/
  | image (target : Target) (span : Span) (children : List Inline)
  /-- Emphasis; it has no counterpart among the tokens and is found last. -/
  | emphasis (strong : Bool) (span : Span) (children : List Inline)

/-- Text that takes up a span. -/
def Inline.text (span : Span) : Inline :=
  .token ⟨.text, span⟩

/-- An opening bracket that waits for its closing one. -/
structure Bracket where
  /-- Whether it begins an image. -/
  image : Bool
  /-- Whether it can still begin a link. -/
  enabled : Bool := true
  /-- Its span. -/
  span : Span
  /-- The position after the bracket. -/
  after : Cursor
  /-- What comes before it, backwards, from the bracket before on. -/
  before : List Inline

/-- What the parts of a text read so far leave for those read later. -/
structure Carried where
  /-- How many bytes of targets references may still repeat. No reference has a target once there
  are none left, so that the whole is not much longer than the text. -/
  allowance : Nat
  /-- How far the text was searched for the ends of HTML constructs. -/
  html : HtmlTried := {}

/-- The runs of backticks that were met while one was searched for in vain. -/
structure TicksMet where
  /-- Whether there were any; the first one cannot end a code span. -/
  any : Bool := false
  /-- Those after the first one. -/
  later : List Token := []

/-- The state of reading tokens. -/
structure InlineState where
  /-- The position of the token to be read. -/
  cursor : Cursor
  /-- What comes before it, backwards, from the last opening bracket on. -/
  current : List Inline := []
  /-- The opening brackets, innermost first. -/
  brackets : List Bracket := []
  /-- Tokens up to this offset have been used up. -/
  used : Nat := 0
  /-- The end of a label that has no target. The token there only closes a bracket. -/
  tried : Option Nat := none
  /-- The runs of backticks met. -/
  ticks : TicksMet := {}
  /-- What the parts before leave. -/
  carried : Carried

namespace InlineState

/-- Appends a part. -/
def append (s : InlineState) (part : Inline) : InlineState :=
  { s with current := part :: s.current }

/-- Appends a part that takes up the tokens to its end. -/
def appendThrough (s : InlineState) (part : Inline) (stop : Nat) : InlineState :=
  { s with current := part :: s.current, used := stop }

/-- Makes the innermost opening bracket text. -/
def dropBracket (s : InlineState) : InlineState :=
  match s.brackets with
  | [] => s
  | bracket :: outer =>
    { s with current := s.current ++ .text bracket.span :: bracket.before, brackets := outer }

/-- Puts everything since the innermost opening bracket into a link or an image. -/
def closeBracket (s : InlineState) (bracket : Bracket) (target : Target) (stop used : Nat) :
    InlineState :=
  let span : Span := ⟨bracket.span.start, stop⟩
  let children := s.current.reverse
  let part :=
    if bracket.image then Inline.image target span children
    else .link false target span children
  let outer := s.brackets.tail
  { s with
    current := part :: bracket.before
    brackets :=
      if bracket.image then outer
      else outer.map fun b => if b.image then b else { b with enabled := false }
    used }

/-- Whether the token with a span is one that only closes a bracket. -/
def closesOnly (s : InlineState) (span : Span) : Bool :=
  s.tried.any fun pos => decide (span.start ≤ pos) && decide (pos < span.stop)

/-- The parts in order, all opening brackets that are left being text. -/
def finish (s : InlineState) : List Inline :=
  (s.brackets.foldl (fun s _ => s.dropBracket) s).current.reverse

end InlineState

/-! ### Code spans -/

/-- The text of a code span: line endings are spaces, and the margins of the lines are left
out. -/
def codeLines (holders : List Holder) : Nat → Cursor → List Char
  | 0, _ => []
  | fuel + 1, cursor =>
    match cursor.rest with
    | [] => []
    | c :: _ =>
      let next := cursor.skip 1
      if isEol c then ' ' :: codeLines holders fuel (next.skipHolders holders)
      else c :: codeLines holders fuel next

/-- A text without one space at each end, if it has both and is not all spaces. -/
def stripCode (cs : List Char) : List Char :=
  if cs.head? == some ' ' && cs.getLast? == some ' ' && !cs.all (· == ' ') then
    cs.tail.dropLast
  else cs

/-- The code between two runs of backticks; the cursor is behind the first. -/
def codeText (holders : List Holder) (cursor : Cursor) (stop : Nat) : String :=
  let code := cursor.upTo stop
  String.ofList (stripCode (codeLines holders (code.rest.length + 1) code))

/-- Whether a token is a run of `count` backticks. -/
def Token.isTicks (count : Nat) (token : Token) : Bool :=
  match token.mark with
  | .ticks n _ => n == count
  | _ => false

/-- Searches for a run of `count` backticks before the next block, and takes note of the others. -/
def searchTicks (count : Nat) (met : TicksMet) : List Token → Option Token × TicksMet
  | [] => (none, met)
  | token :: rest =>
    match token.mark with
    | .ticks n _ =>
      if n = count then (some token, {})
      else if met.any then searchTicks count { met with later := token :: met.later } rest
      else searchTicks count { met with any := true } rest
    | .block _ => (none, met)
    | _ => searchTicks count met rest

/-- The run of `count` backticks that ends a code span. Once a search was in vain, only the runs
met then are taken into account. -/
def closingTicks? (count : Nat) (met : TicksMet) (opening : Span) (rest : List Token) :
    Option Token × TicksMet :=
  if met.later.isEmpty then searchTicks count met rest
  else
    let after := met.later.filter fun token =>
      token.isTicks count && decide (opening.start < token.span.start)
    (after.getLast?, met)

/-! ### References -/

/-- How a link text names its label. -/
inductive ReferenceForm where
  /-- By a label in brackets after it; where that ends. -/
  | full (label : List Char) (stop : Nat)
  /-- By itself, with empty brackets after it; where these end. -/
  | collapsed (stop : Nat)
  /-- By itself. -/
  | shortcut

/-- What follows a link text; `next` is the position of the token after it. -/
def referenceForm (holders : List Holder) (next : Option Cursor) : ReferenceForm :=
  match next with
  | none => .shortcut
  | some cursor =>
    if (stripPrefix? "[]".toList cursor.rest).isSome then .collapsed (cursor.pos + 2)
    else match passLabel (fun c => some (c.skipHolders holders)) cursor with
      | some (label, after) => .full label after.pos
      | none => .shortcut

/-- The label that a link text itself is, if it is one; `bracket` opens the text, and `stop` is
the position after its closing bracket. -/
def ownLabel? (holders : List Holder) (bracket : Bracket) (stop : Nat) : Option (List Char) :=
  let text := bracket.after.upTo stop
  (readLabel (fun c => some (c.skipHolders holders)) {} (text.rest.length + 1) text).bind
    fun (label, after) => if after.pos = stop then some label else none

/-! ### Tokens -/

/-- What inline markup is resolved against. -/
structure InlineScope where
  /-- The containers around the text. -/
  holders : List Holder
  /-- The reference definitions. -/
  definitions : Definitions

/-- The target of a label, as long as the allowance lasts. -/
def InlineScope.find? (scope : InlineScope) (s : InlineState) (label : List Char) :
    Option Target :=
  if s.carried.allowance = 0 then none else scope.definitions.find? label

/-- Makes the innermost opening bracket and its closing one, which has the given span, text. -/
def InlineState.refuseBracket (s : InlineState) (span : Span) : InlineState :=
  s.dropBracket.append (.text span)

/-- Puts everything since the innermost opening bracket into a reference. -/
def InlineState.closeReference (s : InlineState) (bracket : Bracket) (target : Target)
    (stop used : Nat) : InlineState :=
  let allowance :=
    s.carried.allowance - (target.url.utf8ByteSize + target.title.utf8ByteSize)
  { s with carried := { s.carried with allowance } }.closeBracket bracket target stop used

/-- Closes the innermost bracket as a reference by the label that its text is, with the tokens up
to `used`, if that has a target. -/
def InlineScope.closeByText (scope : InlineScope) (s : InlineState) (bracket : Bracket)
    (span : Span) (used : Nat) : InlineState :=
  match (ownLabel? scope.holders bracket span.stop).bind (scope.find? s) with
  | some target => s.closeReference bracket target span.stop used
  | none => s.refuseBracket span

/-- Closes the innermost bracket as a reference, if its label has a target. A label that ends
within a token takes all of it. -/
def InlineScope.closeReference (scope : InlineScope) (s : InlineState) (bracket : Bracket)
    (span : Span) (next : Option Cursor) (rest : List Token) : InlineState :=
  match referenceForm scope.holders next with
  | .full label stop =>
    match rest.find? fun token => stop ≤ token.span.stop with
    | none => s.refuseBracket span
    | some last =>
      match scope.find? s label with
      | some target => s.closeReference bracket target stop last.span.stop
      | none => { s with tried := some (stop - 1) }.refuseBracket span
  | .collapsed after =>
    if s.closesOnly span then s.refuseBracket span
    else scope.closeByText s bracket span after
  | .shortcut =>
    if s.closesOnly span then s.refuseBracket span
    else scope.closeByText s bracket span span.stop

/-- Reads a token; the state's cursor stands at its beginning, and `rest` follows it. -/
def InlineScope.step (scope : InlineScope) (s : InlineState) (token : Token)
    (rest : List Token) : InlineState :=
  let span := token.span
  let after := s.cursor.seek span.stop
  let next := rest.head?.map fun token => after.seek token.span.start
  match token.mark with
  | .angle =>
    match next with
    | none => s.append (.text span)
    | some cursor =>
      match addressLength? cursor.rest with
      | some n =>
        let url := String.ofList (cursor.rest.take n)
        let stop := (cursor.skip (n + 1)).pos
        s.appendThrough
          (.link true { url } ⟨span.start, stop⟩ [.text ⟨span.start + 1, stop - 1⟩]) stop
      | none =>
        let (html?, html) := passInlineHtml scope.holders s.carried.html s.cursor
        let s := { s with carried := { s.carried with html } }
        match html? with
        | some after => s.appendThrough (.html ⟨span.start, after.pos⟩) after.pos
        | none => s.append (.text span)
  | .ticks full escaped =>
    let count := if escaped then full - 1 else full
    let (closing?, ticks) :=
      if count = 0 then (none, s.ticks) else closingTicks? count s.ticks span rest
    let s := { s with ticks }
    match closing? with
    | none => s.append (.text span)
    | some closing =>
      let code := codeText scope.holders after closing.span.start
      if escaped then
        (s.append (.text ⟨span.start, span.start + 1⟩)).appendThrough
          (.code code ⟨span.start + 1, closing.span.stop⟩) closing.span.stop
      else s.appendThrough (.code code ⟨span.start, closing.span.stop⟩) closing.span.stop
  | .linkOpen | .imageOpen =>
    let image := token.mark == .imageOpen
    { s with
      current := []
      brackets := { image, span, after, before := s.current } :: s.brackets }
  | .linkClose =>
    match s.brackets with
    | [] => s.append (.text span)
    | bracket :: _ =>
      if !bracket.enabled then s.refuseBracket span
      else match passTarget scope.holders rest after with
        | some (target, stop) => s.closeBracket bracket target stop.pos stop.pos
        | none => scope.closeReference s bracket span next rest
  | _ => s.append (.token token)

/-- Reads tokens in order, leaving out those that were used up. -/
def InlineScope.run (scope : InlineScope) (s : InlineState) :
    List Token → List Inline × Carried
  | [] => (s.finish, s.carried)
  | token :: rest =>
    if token.span.stop ≤ s.used then scope.run s rest
    else
      let mark := if s.closesOnly token.span then Mark.linkClose else token.mark
      let token := ⟨mark, ⟨max token.span.start s.used, token.span.stop⟩⟩
      let s := { s with cursor := s.cursor.seek token.span.start }
      scope.run (scope.step s token rest) rest

/-- The parts that tokens make. -/
def Inline.ofTokens (scope : InlineScope) (carried : Carried) (cursor : Cursor)
    (tokens : List Token) : List Inline × Carried :=
  InlineScope.run scope { cursor, carried } tokens

end TaggedMemos.Markdown
