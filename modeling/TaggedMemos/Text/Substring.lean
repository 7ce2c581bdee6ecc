/-!
# Substrings

Prefixes, occurrences and replacement on texts given as lists of characters. Replacement goes
from left to right, occurrences do not overlap, and what was written for one occurrence is not
searched again.
-/

namespace TaggedMemos.Text

/-- What follows `start` in a text that begins with it. -/
def stripPrefix? : List Char → List Char → Option (List Char)
  | [], text => some text
  | _ :: _, [] => none
  | p :: start, c :: text => if p = c then stripPrefix? start text else none

/-- Whether `part` occurs in a text. -/
def occursIn (part : List Char) : List Char → Bool
  | [] => part.isEmpty
  | c :: rest => part.isPrefixOf (c :: rest) || occursIn part rest

/-- The text before the first occurrence of `part`, if there is one. -/
def before? (part : List Char) : List Char → Option (List Char)
  | [] => if part.isEmpty then some [] else none
  | c :: rest =>
    if part.isPrefixOf (c :: rest) then some [] else (before? part rest).map (c :: ·)

/-- Replacement, after `skip` characters that belong to an occurrence already replaced. -/
def replaceFrom (old new : List Char) : Nat → List Char → List Char
  | _, [] => []
  | skip + 1, _ :: rest => replaceFrom old new skip rest
  | 0, c :: rest =>
    if old.isPrefixOf (c :: rest) then new ++ replaceFrom old new (old.length - 1) rest
    else c :: replaceFrom old new 0 rest

/-- Every occurrence of `old`, which is not empty, replaced by `new`. -/
def replaceAll (old new text : List Char) : List Char :=
  replaceFrom old new 0 text

/-- The pieces of a text between the characters `sep`; one more than there are separators. -/
def splitAt (sep : Char) : List Char → List (List Char)
  | [] => [[]]
  | c :: rest =>
    if c = sep then [] :: splitAt sep rest
    else match splitAt sep rest with
      | [] => [[c]]
      | piece :: pieces => (c :: piece) :: pieces

end TaggedMemos.Text
