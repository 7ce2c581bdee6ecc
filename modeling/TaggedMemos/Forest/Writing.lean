import TaggedMemos.Forest.Node

/-!
# Writing a Forest

A forest is written by writing its leaves in order; containers add nothing, since their
markers are markup leaves. A leaf that keeps the text it was read from is written as that text, and
tags, texts and embeds are written as they look. How the other leaves are written that have no text
is a choice of its own (`Leaf.writtenBy`). The choice made for memos writes them from their fields
(`Leaf.built`):

* a code span between runs of backticks one longer than the longest inside, with a space on
  both sides where the code begins or ends with a backtick or begins and ends with a space, unless
  it is nothing but spaces;
* a link or image with its text, of which a special first character is escaped, its address,
  in angle brackets if it holds a space, and its title in quotes;
* a code block on a line of its own between fences of four backticks;
* a thematic break as three hyphens.
-/

namespace TaggedMemos

/-! ### Pieces of markdown -/

/-- The length of the longest run of backticks. -/
def longestTicks (cs : List Char) : Nat :=
  go 0 0 cs
where
  /-- `run` backticks precede, and `longest` is the longest run so far. -/
  go (run longest : Nat) : List Char → Nat
    | [] => longest
    | c :: rest =>
      if c = '`' then go (run + 1) (max longest (run + 1)) rest else go 0 longest rest

/-- Whether code is written with a space on both sides. -/
def isPadded (code : List Char) : Bool :=
  code.head? == some '`' || code.getLast? == some '`' ||
    (code.head? == some ' ' && code.getLast? == some ' ' && !code.all (· == ' '))

/-- A code span. -/
def codeSpan (code : List Char) : List Char :=
  let ticks := List.replicate (longestTicks code + 1) '`'
  let space := if isPadded code then [' '] else []
  ticks ++ space ++ code ++ space ++ ticks

/-- The characters that mean something at the beginning of a text. -/
def isSpecial (c : Char) : Bool :=
  "#\\_*<>`|[]".toList.contains c

/-- A text with a special first character escaped. -/
def escapedText : List Char → List Char
  | c :: rest => if isSpecial c then '\\' :: c :: rest else c :: rest
  | [] => []

/-- The address of a link. -/
def address (url : List Char) : List Char :=
  if url.contains ' ' then '<' :: url ++ ['>'] else url

/-- The title of a link, quotes and backslashes escaped; nothing for an empty title. -/
def titlePart (title : List Char) : List Char :=
  if title.isEmpty then []
  else
    " \"".toList ++ title.flatMap (fun c => if c = '"' || c = '\\' then ['\\', c] else [c]) ++ ['"']

/-- A link after its opening bracket. -/
def linkAfterBracket (text url title : List Char) : List Char :=
  escapedText text ++ "](".toList ++ address url ++ titlePart title ++ [')']

/-- A fence of a code block. -/
def fence : List Char := ['`', '`', '`', '`']

/-! ### Leaves and forests -/

/-- A leaf written from its fields. Tags, texts and embeds are not written this way. -/
def Leaf.built : Leaf → List Char
  | code c _ => codeSpan c.toList
  | link t url title _ => '[' :: linkAfterBracket t.toList url.toList title.toList
  | image alt url title _ =>
    '!' :: '[' :: linkAfterBracket alt.toList url.toList title.toList
  | autoLink url _ => '<' :: escapedText url.toList ++ ['>']
  | codeBlock language content _ =>
    '\n' :: fence ++ language.toList ++ '\n' :: content.toList ++ '\n' :: fence
  | rule _ => ['-', '-', '-']
  | tag _ | text _ | embed _ | markup _ => []

/-- A leaf as it was read, or as it looks; `build` writes the leaves for which there is neither. -/
def Leaf.writtenBy (build : Leaf → List Char) (leaf : Leaf) : List Char :=
  if leaf.raw.isEmpty then
    match leaf with
    | tag raw => '#' :: raw.toList
    | text t | markup t => t.toList
    | embed resource => "![[".toList ++ resource.toList ++ "]]".toList
    | leaf => build leaf
  else leaf.raw.toList

/-- A leaf as it was read, as it looks, or else from its fields. -/
def Leaf.written : Leaf → List Char :=
  writtenBy built

/-- The text of a forest, given how leaves without a text are written. -/
def Forest.toMarkdownBy (build : Leaf → List Char) (nodes : Forest) : String :=
  String.ofList (nodes.leaves.flatMap (Leaf.writtenBy build))

/-- The text of a forest. -/
def Forest.toMarkdown : Forest → String :=
  toMarkdownBy Leaf.built

end TaggedMemos
