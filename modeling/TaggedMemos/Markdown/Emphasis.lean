import TaggedMemos.Markdown.Inline

/-!
# Emphasis

Runs of asterisks and underscores are matched within each list of siblings: a run that may
close looks for the nearest run before it that may open and has the same mark. Two marks of
each give strong emphasis, one gives emphasis; inner marks are used first. Runs between the two
become text, and so do the marks that are left over in the end.

When one of two runs may both open and close, their lengths may not add up to a multiple of
three unless both lengths are such multiples.
-/

namespace TaggedMemos.Markdown

open Text

/-- A run that may open emphasis. -/
structure OpenRun where
  /-- Its mark. -/
  mark : Char
  /-- The marks that are left. -/
  count : Nat
  /-- The marks it had at first. -/
  length : Nat
  /-- Whether it could close emphasis as well. -/
  both : Bool
  /-- Its position. -/
  pos : Nat
  /-- Where its last mark ends. -/
  stop : Nat
  /-- What comes before it, backwards, from the open run before on. -/
  before : List Inline

/-- The state of matching runs. -/
structure EmphasisState where
  /-- What comes after the last open run, backwards. -/
  current : List Inline := []
  /-- The open runs, innermost first. -/
  opened : List OpenRun := []

namespace EmphasisState

/-- Makes the innermost open run text. -/
def dropRun (s : EmphasisState) : EmphasisState :=
  match s.opened with
  | [] => s
  | run :: outer =>
    { current := s.current ++ .text ⟨run.pos, run.stop⟩ :: run.before, opened := outer }

/-- Makes the innermost open runs text. -/
def dropRuns : Nat → EmphasisState → EmphasisState
  | 0, s => s
  | n + 1, s => dropRuns n s.dropRun

end EmphasisState

/-- Whether a run closes emphasis that an open run begins. -/
def OpenRun.matches (opening : OpenRun) (mark : Char) (length : Nat) (both : Bool) : Bool :=
  opening.mark == mark &&
    ((!both && !opening.both) || (length + opening.length) % 3 != 0 || length % 3 == 0)

/-- Wraps parts in emphasis with `count` marks before `start` and after `stop`, strong emphasis
innermost. -/
def wrapEmphasis : Nat → Nat → Nat → Nat → List Inline → List Inline
  | 0, _, _, _, children => children
  | 1, start, _, lastStop, children => [.emphasis false ⟨start - 1, lastStop⟩ children]
  | count + 2, start, stop, lastStop, children =>
    let outer := if count = 0 then lastStop else stop + 2
    wrapEmphasis count (start - 2) (stop + 2) lastStop
      [.emphasis true ⟨start - 2, outer⟩ children]

/-- Closes emphasis with the marks of a run at `pos`, as long as there are open runs that match.
`stop` is where the last mark of the run ends, `count` the number of marks left. -/
def closeEmphasis (mark : Char) (length : Nat) (both : Bool) (stop : Nat) :
    Nat → Nat → Nat → EmphasisState → Nat × Nat × EmphasisState
  | 0, pos, count, s => (pos, count, s)
  | fuel + 1, pos, count, s =>
    match if count = 0 then none else s.opened.findIdx? (·.matches mark length both) with
    | none => (pos, count, s)
    | some i =>
      let s := s.dropRuns i
      match s.opened with
      | [] => (pos, count, s)
      | run :: outer =>
        let used := min count run.count
        let lastStop := if used = count then stop else pos + used
        let parts :=
          wrapEmphasis used (run.pos + run.count) pos lastStop s.current.reverse
        let s : EmphasisState :=
          if used = run.count then { current := parts ++ run.before, opened := outer }
          else
            let left := run.count - used
            { current := parts
              opened := { run with count := left, stop := run.pos + left } :: outer }
        closeEmphasis mark length both stop fuel (pos + used) (count - used) s

/-- Takes a part into account. -/
def EmphasisState.step (s : EmphasisState) (part : Inline) : EmphasisState :=
  match part with
  | .token ⟨.run mark length opens closes, span⟩ =>
    let both := opens && closes
    let (pos, count, s) :=
      if closes then closeEmphasis mark length both span.stop length span.start length s
      else (span.start, length, s)
    if count = 0 then s
    else if opens then
      { current := []
        opened := ⟨mark, count, length, both, pos, span.stop, s.current⟩ :: s.opened }
    else { s with current := .text ⟨pos, span.stop⟩ :: s.current }
  | part => { s with current := part :: s.current }

/-- Whether a part is a run. -/
def Inline.isRun : Inline → Bool
  | .token ⟨.run _ _ _ _, _⟩ => true
  | _ => false

/-- Siblings with a backslash before a line ending as their last part: where there are runs, it
is text. -/
def settleLastBreak (parts : List Inline) : List Inline :=
  match parts.reverse with
  | .token ⟨.hardBreak true, span⟩ :: before =>
    if before.any Inline.isRun then (.text span :: before).reverse else parts
  | _ => parts

/-- Siblings with their runs resolved. -/
def emphasize (parts : List Inline) : List Inline :=
  let s := (settleLastBreak parts).foldl EmphasisState.step {}
  (s.dropRuns s.opened.length).current.reverse

mutual

/-- A part with the runs inside it resolved. -/
def Inline.resolved : Inline → Inline
  | .link auto target span children => .link auto target span (emphasize (resolvedAll children))
  | .image target span children => .image target span (emphasize (resolvedAll children))
  | .emphasis strong span children => .emphasis strong span (resolvedAll children)
  | part => part

/-- Parts with the runs inside them resolved. -/
def Inline.resolvedAll : List Inline → List Inline
  | [] => []
  | part :: parts => part.resolved :: resolvedAll parts

end

/-- The parts of a paragraph or heading with all runs resolved. -/
def Inline.resolve (parts : List Inline) : List Inline :=
  emphasize (resolvedAll parts)

end TaggedMemos.Markdown
