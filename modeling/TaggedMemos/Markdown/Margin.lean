import TaggedMemos.Markdown.Cursor

/-!
# The Left Margin

Block structure is told from the margin of a line: indentation, block quote markers and list
markers. Indentation is measured in columns. A tab reaches to the next multiple of four columns,
and when only some of its columns are used up the others stay available.

A line continues the containers around it, outermost first, as far as its margin shows.
-/

namespace TaggedMemos.Markdown

/-- How far the margin of a line has been read. -/
structure Margin where
  /-- The position reached. -/
  cursor : Cursor
  /-- The number of characters read since the last tab, or since the line began. -/
  sinceTab : Nat := 0
  /-- The columns of the last tab that are still available. -/
  spare : Nat := 0

/-- A container that a line has to continue. -/
inductive Holder where
  /-- A block quote, continued by its marker. -/
  | quote
  /-- A list, continued by every line. -/
  | list
  /-- A list item, continued by lines indented this many columns and by empty ones. -/
  | item (indent : Nat)
  deriving DecidableEq, Repr

namespace Margin

/-- Whether the line has no more characters. -/
def atEol (m : Margin) : Bool :=
  (eol? m.cursor.rest).isSome

/-- Passes characters that are no tabs. -/
def pass (n : Nat) (m : Margin) : Margin :=
  { cursor := m.cursor.skip n, sinceTab := m.sinceTab + n, spare := m.spare }

/-- Takes columns from the characters of the line. -/
def takeFrom (missing : Nat) (m : Margin) : List Char → Nat × Margin
  | [] => (missing, m)
  | c :: rest =>
    if missing = 0 then (0, m)
    else if c = ' ' then
      takeFrom (missing - 1)
        { m with cursor := m.cursor.skip 1, sinceTab := m.sinceTab + 1 } rest
    else if c = '\t' then
      let width := 4 - m.sinceTab % 4
      let used := min width missing
      takeFrom (missing - used)
        { cursor := m.cursor.skip 1, sinceTab := 0, spare := width - used } rest
    else (missing, m)

/-- Takes up to `n` columns of indentation; gives the number of columns that were missing. -/
def take (n : Nat) (m : Margin) : Nat × Margin :=
  let used := min m.spare n
  takeFrom (n - used) { m with spare := m.spare - used } m.cursor.rest

/-- Takes all spaces and tabs. -/
def takeAll (m : Margin) : Margin :=
  let n := countWhile (fun c => c == ' ' || c == '\t') m.cursor.rest
  { m with cursor := m.cursor.skip n, spare := 0 }

/-- Passes a block quote marker and one column after it. -/
def quoteMarker? (m : Margin) : Option Margin :=
  match m.cursor.rest with
  | '>' :: _ => some ((m.pass 1).take 1).2
  | _ => none

/-- Continues containers, outermost first; gives the number of those continued. A block quote marker
may have three columns before it, and what more of a tab. -/
def continueThrough (m : Margin) : List Holder → Nat × Margin
  | [] => (0, m)
  | .list :: holders =>
    let (n, inner) := m.continueThrough holders
    (n + 1, inner)
  | .quote :: holders =>
    match (m.take 3).2.quoteMarker? with
    | some inner =>
      let (n, inner) := inner.continueThrough holders
      (n + 1, inner)
    | none => (0, m)
  | .item indent :: holders =>
    let (missing, inner) := m.take indent
    if missing = 0 || inner.atEol then
      let (n, inner) := inner.continueThrough holders
      (n + 1, inner)
    else (0, m)

end Margin

/-- A cursor at the beginning of a line, moved past the margin of the containers. -/
def Cursor.skipHolders (holders : List Holder) (cursor : Cursor) : Cursor :=
  (Margin.continueThrough { cursor } holders).2.cursor

end TaggedMemos.Markdown
