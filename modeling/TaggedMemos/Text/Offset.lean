/-!
# Byte Offsets

Positions in a text count the bytes of its UTF-8 form. A position falls on a character
boundary or inside a character; only the former cut a text. Everything here is computed from
the characters, so no operation can split one.
-/

namespace TaggedMemos.Text

/-- The number of bytes of a text in UTF-8. -/
def byteLength : List Char → Nat
  | [] => 0
  | c :: cs => c.utf8Size + byteLength cs

/-- A text cut at a byte offset, if a character boundary lies there. -/
def cutAt? : Nat → List Char → Option (List Char × List Char)
  | 0, cs => some ([], cs)
  | _ + 1, [] => none
  | n + 1, c :: cs =>
    if c.utf8Size ≤ n + 1 then
      (cutAt? (n + 1 - c.utf8Size) cs).map fun (before, after) => (c :: before, after)
    else none

/-- A range of byte offsets, from `start` up to but not including `stop`. Nothing is required
of the two. -/
structure Span where
  /-- The offset of the first byte. -/
  start : Nat
  /-- The offset after the last byte. -/
  stop : Nat
  deriving DecidableEq, Repr, Inhabited

/-- The part of a text that a span covers; empty unless the span is in order, in bounds and
between character boundaries. -/
def slice (cs : List Char) (span : Span) : List Char :=
  if span.start ≤ span.stop then
    match cutAt? span.start cs with
    | some (_, rest) =>
      match cutAt? (span.stop - span.start) rest with
      | some (part, _) => part
      | none => []
    | none => []
  else []

/-- The character that ends at a byte offset, if a character boundary lies there. -/
def charBefore? (cs : List Char) (offset : Nat) : Option Char :=
  (cutAt? offset cs).bind fun (before, _) => before.getLast?

end TaggedMemos.Text
