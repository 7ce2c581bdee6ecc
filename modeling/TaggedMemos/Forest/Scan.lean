import TaggedMemos.Forest.Node
import TaggedMemos.Text.Alphanumeric
import TaggedMemos.Text.Blank
import TaggedMemos.Text.Substring

/-!
# Tags and Embeds in a Run of Text

A run of text is cut into tag leaves, embed leaves and the text between them.

* A tag is a `#` and the tag characters after it, at least one of them. The `#` has to open the
  run or to follow a blank character, an opening bracket or a quote.
* An embed is `![[`, a resource, and the first `]]` after it. The resource is not empty and
  stays on one line.

The leaves written in order are the run.
-/

namespace TaggedMemos

open Text

/-- The characters a tag consists of. -/
def isTagChar (c : Char) : Bool :=
  isAlphanumeric c || c == '-' || c == '_' || c == '/'

/-- Whether a `#` after `previous` can begin a tag. -/
def opensTag : Option Char → Bool
  | none => true
  | some c => isBlank c || c == '(' || c == '[' || c == '{' || c == '"' || c == '\''

/-- The tag a text begins with, given the character before it. -/
def tagAt? (previous : Option Char) : List Char → Option (List Char)
  | '#' :: rest =>
    let name := rest.takeWhile isTagChar
    if opensTag previous && !name.isEmpty then some name else none
  | _ => none

/-- The resource of the embed a text begins with. -/
def embedAt? (text : List Char) : Option (List Char) := do
  let inner ← stripPrefix? ['!', '[', '['] text
  let resource ← before? [']', ']'] inner
  if resource.isEmpty || resource.contains '\n' then none else some resource

/-- The tag or embed a text begins with, and how many characters it takes up. -/
def leafAt? (previous : Option Char) (text : List Char) : Option (Leaf × Nat) :=
  match tagAt? previous text with
  | some name => some (.tag (String.ofList name), name.length + 1)
  | none => (embedAt? text).map fun resource =>
      (.embed (String.ofList resource), resource.length + 5)

/-- The text leaf for characters collected backwards; none for no characters. -/
def textLeaf (backwards : List Char) : List Leaf :=
  if backwards.isEmpty then [] else [.text (String.ofList backwards.reverse)]

/-- Scans a run: `skip` characters belong to the leaf found last, `previous` is the character
before, and `plain` holds the text since the last leaf, backwards. -/
def scanFrom : Nat → Option Char → List Char → List Char → List Leaf
  | _, _, plain, [] => textLeaf plain
  | skip + 1, _, plain, c :: rest => scanFrom skip (some c) plain rest
  | 0, previous, plain, c :: rest =>
    match leafAt? previous (c :: rest) with
    | some (leaf, width) => textLeaf plain ++ leaf :: scanFrom (width - 1) (some c) [] rest
    | none => scanFrom 0 (some c) (c :: plain) rest

/-- The leaves of a run of text. An escaped run stands right after a backslash that escapes its
first character, so it cannot open with a tag. -/
def scanRun (escaped : Bool) (text : List Char) : List Leaf :=
  scanFrom 0 (if escaped then some '\\' else none) [] text

end TaggedMemos
