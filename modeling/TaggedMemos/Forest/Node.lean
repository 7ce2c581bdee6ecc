/-!
# Content Forests

The text of a memo is read into a forest of nodes. A node is a leaf with one piece of content,
or a container with a list of children. Trees are finite by construction.

A forest read from a text loses nothing: what stands between pieces of content (list markers,
emphasis delimiters, escapes, blank lines) is kept in markup leaves, and leaves with structure
keep the text they were written as, so writing the leaves in order gives the text back.
`Forest.preorder` is the one view of a forest that everything else is computed from.
-/

namespace TaggedMemos

/-- A piece of content. Where a leaf has `raw`, it is the text the leaf was written as, and is
empty for a leaf that was not read from a text. -/
inductive Leaf where
  /-- A tag, as written after the `#`. -/
  | tag (raw : String)
  /-- Text as written, entities and all. -/
  | text (text : String)
  /-- A code span. -/
  | code (code raw : String)
  /-- A link, with the text a reader sees. -/
  | link (text url title raw : String)
  /-- An address in angle brackets. -/
  | autoLink (url raw : String)
  /-- An image, with its description. -/
  | image (alt url title raw : String)
  /-- A fenced or indented code block. -/
  | codeBlock (language content raw : String)
  /-- A resource written `![[resource]]`. -/
  | embed (resource : String)
  /-- A thematic break. -/
  | rule (raw : String)
  /-- Markup that means nothing for tags. -/
  | markup (text : String)
  deriving DecidableEq, Repr

/-- What a container is. -/
inductive ContainerKind where
  /-- A paragraph. -/
  | paragraph
  /-- A heading with its level. -/
  | heading (level : Nat)
  /-- A block quote. -/
  | quote
  /-- A list. -/
  | list (ordered : Bool)
  /-- An item of an ordered list with its number. -/
  | orderedItem (number : UInt64)
  /-- An item of a bullet list. -/
  | bulletItem
  /-- An item with a task marker. -/
  | taskItem (complete : Bool)
  /-- Strong emphasis. -/
  | bold
  /-- Emphasis. -/
  | italic
  deriving DecidableEq, Repr

/-- A node of a content forest. -/
inductive Node where
  /-- A piece of content. -/
  | leaf (leaf : Leaf)
  /-- A container with its children in order. -/
  | container (kind : ContainerKind) (children : List Node)
  deriving Repr

/-- A list of nodes. -/
abbrev Forest := List Node

instance : Inhabited Node := ⟨.leaf (.text "")⟩

/-- The text a leaf was read from; empty for leaves that have none. -/
def Leaf.raw : Leaf → String
  | code _ raw | link _ _ _ raw | autoLink _ raw | image _ _ _ raw | codeBlock _ _ raw
  | rule raw => raw
  | tag _ | text _ | embed _ | markup _ => ""

/-! ### Walking a forest -/

mutual

/-- A node and everything below it, each node before its children. -/
def Node.preorder : Node → List Node
  | .leaf l => [.leaf l]
  | .container kind children => .container kind children :: Forest.preorder children

/-- Every node of a forest, each node before its children. -/
def Forest.preorder : List Node → List Node
  | [] => []
  | node :: nodes => node.preorder ++ Forest.preorder nodes

end

/-- The leaf a node is, if it is one. -/
def Node.leaf? : Node → Option Leaf
  | .leaf l => some l
  | .container .. => none

/-- The leaves of a forest in order. -/
def Forest.leaves (nodes : Forest) : List Leaf :=
  (Forest.preorder nodes).filterMap Node.leaf?

end TaggedMemos
