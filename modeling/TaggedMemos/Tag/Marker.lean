import TaggedMemos.Tag.Path
import TaggedMemos.Text.Blank

/-!
# Markers in Raw Text

Editing a tag in every memo of a caller works on the raw text: occurrences of the marker are
replaced wherever they stand, inside code as well, and at the front of a longer tag such as
`#workshop` for `#work`. The markdown structure is not looked at.
-/

namespace TaggedMemos.Tag

open Text

/-- Removes every marker followed by a space together with that space, then every marker left,
then the blank characters at both ends. -/
def stripMarker (content path : String) : String :=
  let marker := (TagPath.marker path).toList
  String.ofList
    (trim (replaceAll marker [] (replaceAll (marker ++ [' ']) [] content.toList)))

/-- Replaces every marker of one path by the marker of another. -/
def replaceMarker (content old new : String) : String :=
  String.ofList
    (replaceAll (TagPath.marker old).toList (TagPath.marker new).toList content.toList)

end TaggedMemos.Tag
