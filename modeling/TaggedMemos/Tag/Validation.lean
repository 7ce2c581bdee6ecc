import TaggedMemos.Tag.Path
import TaggedMemos.Text.Blank
import TaggedMemos.Text.Numeral

/-!
# Paths Typed by a Caller

A path found in a memo consists of tag characters already. A path typed by a caller can be
anything, so it is checked before use. It may omit the slash in front and may end in one slash.
Among several faults the first of the list below is reported.
-/

namespace TaggedMemos.TagPath

open Text

/-- Why a typed path is refused. -/
inductive Rejection where
  /-- The path has no character that is not blank. -/
  | empty
  /-- The path has a blank character; the first one. -/
  | blank (c : Char)
  /-- The path has a `#`. -/
  | sigil
  /-- The path has no segment. -/
  | noSegments
  /-- Two slashes follow each other. -/
  | emptySegment
  deriving DecidableEq, Repr

/-- A blank character as it is named in a message: the space, tab, line feed and carriage
return by their short forms, every other one by its code point. -/
def blankName (c : Char) : String :=
  if c = ' ' then "' '"
  else if c = '\t' then "'\\t'"
  else if c = '\n' then "'\\n'"
  else if c = '\r' then "'\\r'"
  else "'\\u\x7b" ++ String.ofList (hexDigits (hexWidth c.toNat) c.toNat) ++ "\x7d'"

/-- The wording of a refusal. -/
def Rejection.message : Rejection → String
  | empty => "tag path cannot be empty"
  | blank c => "tag path cannot contain whitespace, found " ++ blankName c
  | sigil => "tag path must not include '#', write 'work/p1' not '#work/p1'"
  | noSegments => "tag path must contain at least one segment"
  | emptySegment => "tag path cannot contain empty segments"

/-- A text without one slash at its end. -/
def withoutLastSlash (cs : List Char) : List Char :=
  match cs.reverse with
  | '/' :: before => before.reverse
  | _ => cs

/-- The canonical form of a typed path, or the first fault found in it. -/
def validate (input : String) : Except Rejection String :=
  let cs := input.toList
  if isBlankText cs then .error .empty
  else match cs.find? isBlank with
    | some c => .error (.blank c)
    | none =>
      if cs.contains '#' then .error .sigil
      else
        let inner := withoutLastSlash ((stripPrefix? ['/'] cs).getD cs)
        if inner.isEmpty then .error .noSegments
        else if (splitAt '/' inner).any (·.isEmpty) then .error .emptySegment
        else .ok (normalize (String.ofList inner))

end TaggedMemos.TagPath
