/-!
# Character Sets as Ranges

A Unicode property is a set of code points. Here it is the list of its inclusive ranges in
ascending order, so a table holds each range once and membership looks at no other data.
-/

namespace TaggedMemos.Text

/-- A set of characters as inclusive ranges of code points, in ascending order. -/
abbrev CharRanges := List (Nat × Nat)

/-- Membership: some range holds the character's code point. The search stops at the first
range that ends at or after it. -/
def CharRanges.contains : CharRanges → Char → Bool
  | [], _ => false
  | (first, last) :: ranges, c =>
    if last < c.toNat then CharRanges.contains ranges c else first ≤ c.toNat

end TaggedMemos.Text
