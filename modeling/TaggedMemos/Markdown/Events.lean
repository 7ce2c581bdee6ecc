import TaggedMemos.Forest.Event
import TaggedMemos.Markdown.BlockReader
import TaggedMemos.Markdown.Emphasis

/-!
# Events of a Text

The events of a text come from its blocks in order. Everything that begins also ends, because
events are made from trees. The text of an event is the part of the source that its span
covers, except in code, where tabs and line endings may have been replaced.
-/

namespace TaggedMemos.Markdown

open Text

/-- What the events are made from: the characters of the text and its reference definitions. -/
structure EventScope where
  /-- The text. -/
  source : List Char
  /-- The reference definitions. -/
  definitions : Definitions

/-- The events of a part of the text. They depend on the parts that were read before. -/
abbrev Emission := StateM Carried (List Located)

/-- Events within a start and a stop. -/
def enclose (opening : Opening) (span : Span) (inner : List Located) : List Located :=
  ⟨.start opening, span⟩ :: inner ++ [⟨.stop, span⟩]

/-- The event of a token. -/
def EventScope.ofToken (scope : EventScope) (token : Token) : Located :=
  match token.mark with
  | .softBreak => ⟨.softBreak, token.span⟩
  | .hardBreak _ => ⟨.hardBreak, token.span⟩
  | .task complete => ⟨.taskMarker complete, token.span⟩
  | _ => ⟨.text (String.ofList (slice scope.source token.span)), token.span⟩

mutual

/-- The events of a part of a paragraph, heading or tight item; `blocks` has those of the blocks
in the item, given where each of them begins. -/
def EventScope.ofInline (scope : EventScope) (blocks : List (Nat → Emission)) :
    Inline → Emission
  | .token ⟨.block index, span⟩ =>
    match blocks[index]? with
    | some emission => emission span.start
    | none => pure []
  | .token token => pure [scope.ofToken token]
  | .code code span => pure [⟨.code code, span⟩]
  | .html span => pure [⟨.html, span⟩]
  | .link auto target span children => do
    return enclose (.link auto target.url target.title) span (← scope.ofInlines blocks children)
  | .image target span children => do
    return enclose (.image target.url target.title) span (← scope.ofInlines blocks children)
  | .emphasis strong span children => do
    let opening := if strong then Opening.strong else .emphasis
    return enclose opening span (← scope.ofInlines blocks children)

/-- The events of parts in order. -/
def EventScope.ofInlines (scope : EventScope) (blocks : List (Nat → Emission)) :
    List Inline → Emission
  | [] => pure []
  | part :: parts => do
    let events ← scope.ofInline blocks part
    return events ++ (← scope.ofInlines blocks parts)

end

/-- The events of tokens, the first of which has the given position, up to the offset `stop`.
They are read from the first one whose meaning is open. -/
def EventScope.ofTokens (scope : EventScope) (blocks : List (Nat → Emission)) (cursor : Cursor)
    (holders : List Holder) (stop : Nat) (tokens : List Token) : Emission := do
  let settled := tokens.takeWhile fun token => !token.mark.isOpen
  let before ← scope.ofInlines blocks (settled.map .token)
  let (parts, carried) :=
    Inline.ofTokens { holders, definitions := scope.definitions } (← get) (cursor.upTo stop)
      (tokens.drop settled.length)
  set carried
  return before ++ (← scope.ofInlines blocks (Inline.resolve parts))

/-- The events of the text of a paragraph or heading that ends at `stop`. -/
def EventScope.ofProse (scope : EventScope) (prose : Prose) (stop : Nat) : Emission :=
  scope.ofTokens [] prose.cursor prose.holders stop prose.tokens

/-- The events of a tight item that ends at `stop`, given those of its blocks. -/
def EventScope.ofStrand (scope : EventScope) (children : List Block)
    (blocks : List (Nat → Emission)) (stop : Nat) : Emission :=
  let (cursor, holders) :=
    match children.findSome? Block.paragraphProse? with
    | some prose => (prose.cursor, prose.holders)
    | none => ({ rest := [] }, [])
  scope.ofTokens blocks cursor holders stop (Block.strandTokens children)

/-- The events of blocks in order, each beginning where it stands. -/
def sequence : List Block → List (Nat → Emission) → Emission
  | block :: blocks, emission :: emissions => do
    let events ← emission block.span.start
    return events ++ (← sequence blocks emissions)
  | _, _ => pure []

mutual

/-- The events of a block, given where it begins. -/
def EventScope.ofBlock (scope : EventScope) : Block → Nat → Emission
  | .paragraph span prose, start => do
    return enclose .paragraph ⟨start, span.stop⟩ (← scope.ofProse prose span.stop)
  | .heading level span prose, start => do
    return enclose (.heading level) ⟨start, span.stop⟩ (← scope.ofProse prose span.stop)
  | .rule span, start => pure [⟨.rule, ⟨start, span.stop⟩⟩]
  | .code info span pieces, start =>
    pure (enclose (.codeBlock info) ⟨start, span.stop⟩
      (pieces.map fun (text, part) => ⟨.text text, part⟩))
  | .html span lines, start =>
    pure (enclose .other ⟨start, span.stop⟩ (lines.map fun line => ⟨.html, line⟩))
  | .task complete span, start => pure [⟨.taskMarker complete, ⟨start, span.stop⟩⟩]
  | .quote span children, start => do
    return enclose .quote ⟨start, span.stop⟩ (← sequence children (scope.ofBlocks children))
  | .list first span children, start => do
    return enclose (.list (first.map UInt64.ofNat)) ⟨start, span.stop⟩
      (← sequence children (scope.ofBlocks children))
  | .item tight span children, start => do
    let blocks := scope.ofBlocks children
    return enclose .item ⟨start, span.stop⟩
      (← if tight then scope.ofStrand children blocks span.stop else sequence children blocks)

/-- The events of each of some blocks. -/
def EventScope.ofBlocks (scope : EventScope) : List Block → List (Nat → Emission)
  | [] => []
  | block :: blocks => scope.ofBlock block :: scope.ofBlocks blocks

end

/-- The least number of bytes of targets that the references of a text may repeat. -/
def leastAllowance : Nat := 100000

/-- The events of a text. The targets that its references repeat may be as long as the text
itself. -/
def events (source : String) : List Located :=
  let (blocks, definitions) := readBlocks source
  let scope : EventScope := { source := source.toList, definitions }
  let allowance := max source.utf8ByteSize leastAllowance
  (Id.run ((sequence blocks (scope.ofBlocks blocks)).run { allowance })).1

end TaggedMemos.Markdown
