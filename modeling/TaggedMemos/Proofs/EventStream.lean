import TaggedMemos.Forest.Event
import TaggedMemos.Proofs.Slice

/-!
# What a Stream of Events Promises

The events of a markdown text come from outside of the assembly of forests, which relies on
little: that starts and stops match, that spans can be cut out of the text, and that whatever
becomes a leaf with a text of its own brings some text that was not passed before. `Faithful` says
this. Spans may overlap, leave gaps and run backwards all the same.

## Main results

* `Balanced`: starts and stops match.
* `Faithful`: what a stream promises about the text it belongs to.
-/

namespace TaggedMemos

open Text

/-- Whether an opening leads to a leaf that keeps the text from its start to its stop. -/
def Opening.isLeaf : Opening → Bool
  | link .. | image .. | codeBlock _ => true
  | _ => false

/-- Whether an event neither begins nor ends a construct. -/
def Event.isPlain : Event → Bool
  | start _ | stop => false
  | _ => true

/-- Whether an event becomes a leaf that keeps its text. -/
def Event.isLeaf : Event → Bool
  | code _ | rule => true
  | _ => false

/-- Streams in which starts and stops match. -/
inductive Balanced : List Located → Prop
  /-- Nothing at all. -/
  | nil : Balanced []
  /-- An event that neither begins nor ends a construct, and what comes after it. -/
  | plain {located : Located} {rest : List Located} (event : located.event.isPlain = true)
      (after : Balanced rest) : Balanced (located :: rest)
  /-- A construct with what is inside of it, and what comes after it. -/
  | nested {opening : Opening} {span span' : Span} {inner rest : List Located}
      (inside : Balanced inner) (after : Balanced rest) :
      Balanced (⟨.start opening, span⟩ :: (inner ++ ⟨.stop, span'⟩ :: rest))

/-- How far into the text an event leads: a start to its own beginning, everything else to the end
of its span. -/
def Located.reach (located : Located) : Nat :=
  match located.event with
  | .start _ => located.span.start
  | _ => located.span.stop

/-- A construct in a stream: its start, the events inside of it and its stop, with the events
before. -/
structure IsConstruct (events before : List Located) (opening : Opening) (span : Span)
    (inner : List Located) (span' : Span) : Prop where
  /-- The events inside match each other, so the stop is that of the start. -/
  inside : Balanced inner
  /-- It is a part of the stream. -/
  place : ∃ after, events = before ++ ⟨.start opening, span⟩ :: (inner ++ ⟨.stop, span'⟩ :: after)

/-- What a stream of events promises about the text it belongs to. -/
structure Faithful (source : List Char) (events : List Located) : Prop where
  /-- Starts and stops match. -/
  balanced : Balanced events
  /-- Spans are in order. -/
  ordered : ∀ e ∈ events, e.span.start ≤ e.span.stop
  /-- Spans are in bounds. -/
  bounded : ∀ e ∈ events, e.span.stop ≤ byteLength source
  /-- Spans lie between characters. -/
  boundary : ∀ e ∈ events, IsBoundary source e.span.start ∧ IsBoundary source e.span.stop
  /-- What is inside of a link, an image or a code block ends no later than that. -/
  inside : ∀ before opening span inner span', opening.isLeaf = true →
    IsConstruct events before opening span inner span' → ∀ e ∈ inner, e.span.stop ≤ span'.stop
  /-- A link, an image or a code block is not empty, and ends after everything before it. -/
  construct : ∀ before opening span inner span', opening.isLeaf = true →
    IsConstruct events before opening span inner span' →
      span.start < span'.stop ∧ ∀ e ∈ before, e.reach < span'.stop
  /-- A code span or a rule is not empty, and ends after everything before it. -/
  leaf : ∀ before e after, e.event.isLeaf = true → events = before ++ e :: after →
    e.span.start < e.span.stop ∧ ∀ e' ∈ before, e'.reach < e.span.stop

/-- The events of a text that is one line of plain text. -/
def plainEvents (text : String) : List Located :=
  let whole : Span := ⟨0, byteLength text.toList⟩
  [⟨.start .paragraph, whole⟩, ⟨.text text, whole⟩, ⟨.stop, whole⟩]

/-- The events of a line of plain text are faithful to it: there is no construct but the paragraph,
and no leaf. -/
theorem plainEvents_faithful (text : String) : Faithful text.toList (plainEvents text) := by
  have start := isBoundary_zero text.toList
  have stop := isBoundary_byteLength text.toList
  have noLeaf : ∀ before opening span inner span', opening.isLeaf = true →
      ¬ IsConstruct (plainEvents text) before opening span inner span' := by
    rintro before opening span inner span' leaf ⟨-, after, place⟩
    have member : ⟨.start opening, span⟩ ∈ plainEvents text := by simp [place]
    simp only [plainEvents, List.mem_cons, Located.mk.injEq, Event.start.injEq, reduceCtorEq,
      false_and, or_false, List.not_mem_nil] at member
    obtain ⟨rfl, -⟩ := member
    cases leaf
  refine ⟨.nested (.plain rfl .nil) .nil, ?_, ?_, ?_, ?_, ?_, ?_⟩
  · simp [plainEvents]
  · simp [plainEvents]
  · simp [plainEvents, start, stop]
  · exact fun _ _ _ _ _ leaf construct => absurd construct (noLeaf _ _ _ _ _ leaf)
  · exact fun _ _ _ _ _ leaf construct => absurd construct (noLeaf _ _ _ _ _ leaf)
  · intro before e after kept place
    have member : e ∈ plainEvents text := by simp [place]
    simp only [plainEvents, List.mem_cons, List.not_mem_nil, or_false] at member
    rcases member with rfl | rfl | rfl <;> cases kept

end TaggedMemos
