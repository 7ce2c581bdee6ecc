import TaggedMemos.Markdown.Margin
import TaggedMemos.Text.Numeral
import TaggedMemos.Text.Substring

/-!
# What a Line Begins

Recognisers for the beginnings of blocks. Each looks at a line after its margin and answers
with what it found; none of them looks at the containers around the line, except that a list
marker decides how far the item it begins has to be indented.
-/

namespace TaggedMemos.Markdown

open Text

/-! ### Thematic breaks, headings, fences -/

/-- The length of the thematic break a text begins with, its line ending included: three or
more of the same mark with nothing but spaces and tabs between. -/
def thematicBreak? (cs : List Char) : Option Nat :=
  match cs with
  | [] => none
  | c :: _ => if c == '*' || c == '-' || c == '_' then go c 0 0 cs else none
where
  /-- `seen` marks were met in the `read` characters before. -/
  go (mark : Char) (seen read : Nat) : List Char → Option Nat
    | [] => if 3 ≤ seen then some read else none
    | c :: rest =>
      if isEol c then
        if 3 ≤ seen then (eol? (c :: rest)).map (read + ·) else none
      else if c = mark then go mark (seen + 1) (read + 1) rest
      else if c = ' ' || c = '\t' then go mark seen (read + 1) rest
      else none

/-- The level of the heading a text begins with. -/
def headingLevel? (cs : List Char) : Option Nat :=
  let level := countWhile (· == '#') cs
  if 1 ≤ level && level ≤ 6 && (cs.drop level).head?.all isSpacing then some level else none

/-- The level an underline gives to the paragraph before it, and the length of its line. -/
def underline? (cs : List Char) : Option (Nat × Nat) :=
  match cs with
  | c :: _ =>
    if c == '=' || c == '-' then
      let n := countWhile (· == c) cs
      (blankLine? (cs.drop n)).map fun blank => (if c == '=' then 1 else 2, n + blank)
    else none
  | [] => none

/-- A code fence: its character and its length. -/
structure Fence where
  /-- A backtick or a tilde. -/
  mark : Char
  /-- How often it stands in a row. -/
  length : Nat

/-- The code fence a text begins with. After backticks no backtick may follow on the line. -/
def codeFence? (cs : List Char) : Option Fence :=
  match cs with
  | c :: _ =>
    if c == '`' || c == '~' then
      let n := countWhile (· == c) cs
      if n < 3 then none
      else if c == '`' && ((cs.drop n).takeWhile (· != '\n')).contains '`' then none
      else some ⟨c, n⟩
    else none
  | [] => none

/-- The length of the fence that closes a code block, without its line ending. The end of the
text closes every block. -/
def closingFence? (opening : Fence) (cs : List Char) : Option Nat :=
  if cs.isEmpty then some 0
  else
    let n := countWhile (· == opening.mark) cs
    if n < opening.length then none
    else
      let spaces := countWhile (· == ' ') (cs.drop n)
      (eol? (cs.drop (n + spaces))).map fun _ => n + spaces

/-! ### List items -/

/-- A list marker. -/
structure ListMarker where
  /-- The bullet, or the delimiter after the number. -/
  delimiter : Char
  /-- The number, zero for a bullet. -/
  number : Nat
  /-- The columns that lines of the item are indented. -/
  indent : Nat

/-- Whether the marker begins an item of an ordered list. -/
def isOrderedDelimiter (delimiter : Char) : Bool :=
  delimiter == '.' || delimiter == ')'

/-- Completes a marker that ends at a margin. The text of the item begins after up to three
more columns; with four or more it is indented code, and a blank rest of the line counts for
nothing. -/
def ListMarker.complete (marker : ListMarker) (m : Margin) : ListMarker × Margin :=
  if (blankLine? m.cursor.rest).isSome then (marker, m)
  else
    let (missing, inner) := m.take 4
    if missing = 0 then (marker, m)
    else ({ marker with indent := marker.indent + (4 - missing) }, inner)

/-- Passes the list marker at a margin. The marker is followed by a column of space or by the
end of the line, and is not the beginning of a thematic break. -/
def Margin.listMarker? (m : Margin) : Option (ListMarker × Margin) :=
  let (missing, inner) := m.take 4
  let indent := 4 - missing
  if missing = 0 then none
  else match inner.cursor.rest with
    | [] => none
    | c :: rest =>
      if c == '-' || c == '+' || c == '*' then
        if (thematicBreak? (c :: rest)).isSome then none
        else
          let (short, after) := (inner.pass 1).take 1
          if short = 0 || after.atEol then
            some (ListMarker.complete ⟨c, 0, indent + 2⟩ after)
          else none
      else
        let digits := (c :: rest).takeWhile isAsciiDigit
        let n := digits.length
        if n = 0 || 9 < n then none
        else match (c :: rest).drop n with
          | d :: _ =>
            if isOrderedDelimiter d then
              let (short, after) := (inner.pass (n + 1)).take 1
              if short = 0 || after.atEol then
                some (ListMarker.complete ⟨d, (decimal? digits).getD 0, indent + n + 2⟩ after)
              else none
            else none
          | [] => none

/-- Passes the task marker at a margin; tells whether the task is complete. -/
def Margin.taskMarker? (m : Margin) : Option (Bool × Margin) :=
  let inner := (m.take 3).2
  match inner.cursor.rest with
  | '[' :: c :: ']' :: d :: _ =>
    if isGap d then
      if isGap c then some (false, inner.pass 3)
      else if c == 'x' || c == 'X' then some (true, inner.pass 3)
      else none
    else none
  | _ => none

/-- A list item that a line begins, seen from outside. -/
structure ItemStart where
  /-- Whether it is a bullet or has the number one. -/
  isFirst : Bool
  /-- The text after the marker. -/
  after : List Char

/-- The list item a text begins with: a marker and then a space, a tab or the end of the
line. -/
def itemStart? (cs : List Char) : Option ItemStart :=
  let digits := cs.takeWhile isAsciiDigit
  let found? : Option ItemStart :=
    match cs with
    | [] => none
    | c :: rest =>
      if c == '-' || c == '+' || c == '*' then some ⟨true, rest⟩
      else if digits.isEmpty || 9 < digits.length then none
      else match cs.drop digits.length with
        | d :: after =>
          if isOrderedDelimiter d then some ⟨decimal? digits == some 1, after⟩ else none
        | [] => none
  found?.filter fun item => item.after.head?.all fun c => c == ' ' || c == '\t' || isEol c

/-- Whether a list item may interrupt a paragraph it could also continue: it has to be the
first of its list, and something has to stand in its first line. -/
def ItemStart.interrupts (item : ItemStart) : Bool :=
  item.isFirst && (blankLine? item.after).isNone

end TaggedMemos.Markdown
