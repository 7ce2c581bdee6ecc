import TaggedMemos.Text.Substring

/-!
# Tag Paths

A tag is written in a memo as `#work/project` and named by a path. A path is a text cut into
segments at slashes; empty segments do not count. The canonical path of a list of segments
puts one slash before each of them, and `/` stands for the empty list. Paths are compared
character by character, so `/Work` and `/work` are different tags.

Relations between paths (`isDirectChild`, `isSameOrBelow`, `parent?`) are tests on the text.
On canonical paths with at least one segment they are the relations between segment lists.
-/

namespace TaggedMemos.TagPath

open Text

/-! ### Segments and the canonical form -/

/-- The segments of a raw path: its non-empty pieces between slashes. -/
def pieces (raw : List Char) : List (List Char) :=
  (splitAt '/' raw).filter (!·.isEmpty)

/-- The canonical path of a list of segments. -/
def written : List (List Char) → List Char
  | [] => ['/']
  | segments => segments.flatMap ('/' :: ·)

/-- The segments of a raw path, from the root down. -/
def segments (raw : String) : List String :=
  (pieces raw.toList).map String.ofList

/-- The canonical path with the segments of a raw path. -/
def normalize (raw : String) : String :=
  String.ofList (written (pieces raw.toList))

/-- A path without the slash it starts with, if it starts with one. -/
def withoutSlash (path : String) : String :=
  String.ofList ((stripPrefix? ['/'] path.toList).getD path.toList)

/-- A path with a slash in front, if it does not start with one. -/
def withSlash (path : String) : String :=
  if path.toList.head? = some '/' then path else String.ofList ('/' :: path.toList)

/-- The text that marks a tag in a memo: `/a/b` is written `#a/b`. -/
def marker (path : String) : String :=
  String.ofList ('#' :: (withoutSlash path).toList)

/-! ### Relations -/

/-- The text of a path before its last slash, when there is any. -/
def parent? (path : String) : Option String :=
  match path.toList.reverse.dropWhile (· ≠ '/') with
  | _ :: c :: before => some (String.ofList (c :: before).reverse)
  | _ => none

/-- Whether `other` is `parent`, a slash and one more segment. -/
def isDirectChild (parent other : String) : Bool :=
  match (stripPrefix? parent.toList other.toList).bind (stripPrefix? ['/']) with
  | some rest => !rest.isEmpty && !rest.contains '/'
  | none => false

/-- Whether `path` is `ancestor`, or `ancestor` followed by a slash and anything. -/
def isSameOrBelow (ancestor path : String) : Bool :=
  path == ancestor ||
    match stripPrefix? ancestor.toList path.toList with
    | some rest => rest.head? == some '/'
    | none => false

end TaggedMemos.TagPath
