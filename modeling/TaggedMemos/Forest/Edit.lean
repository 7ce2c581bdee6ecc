import TaggedMemos.Forest.Node
import TaggedMemos.Tag.Path

/-!
# Editing Tags in a Forest

Editing a tag in one memo works on its forest. Only tag leaves whose canonical path is the
given one are touched, at any depth; the text around them stays as it is, so removing the tag
from `a #x b` leaves `a  b`. An edit gives the new forest together with the number of leaves
it touched.
-/

namespace TaggedMemos

/-- The result of an edit. -/
structure Edited (α : Type) where
  /-- What was edited, after the edit. -/
  result : α
  /-- The number of tag leaves the edit touched. -/
  count : Nat
  deriving Repr

/-- Whether a node is a tag leaf with the given canonical path. -/
def Node.isTagOn (path : String) : Node → Bool
  | .leaf (.tag raw) => TagPath.normalize raw == path
  | _ => false

/-! ### Removal -/

mutual

/-- Drops the tag leaves on `path` below a node. -/
def Node.removeTag (path : String) : Node → Edited Node
  | .leaf l => ⟨.leaf l, 0⟩
  | .container kind children =>
    let edited := Forest.removeTag path children
    ⟨.container kind edited.result, edited.count⟩

/-- Drops the tag leaves on `path`. Containers stay, even when nothing is left in them. -/
def Forest.removeTag (path : String) : List Node → Edited (List Node)
  | [] => ⟨[], 0⟩
  | node :: nodes =>
    let rest := Forest.removeTag path nodes
    if node.isTagOn path then ⟨rest.result, rest.count + 1⟩
    else
      let edited := node.removeTag path
      ⟨edited.result :: rest.result, edited.count + rest.count⟩

end

/-! ### Renaming -/

/-- Points a leaf at `new` if it is a tag on `old`. -/
def Leaf.renameTag (old new : String) : Leaf → Edited Leaf
  | tag raw =>
    if TagPath.normalize raw == old then ⟨tag (TagPath.withoutSlash new), 1⟩ else ⟨tag raw, 0⟩
  | leaf => ⟨leaf, 0⟩

mutual

/-- Points the tag leaves on `old`, the node itself or below it, at `new`. -/
def Node.renameTag (old new : String) : Node → Edited Node
  | .leaf l =>
    let edited := l.renameTag old new
    ⟨.leaf edited.result, edited.count⟩
  | .container kind children =>
    let edited := Forest.renameTag old new children
    ⟨.container kind edited.result, edited.count⟩

/-- Points every tag leaf on `old` at `new`. -/
def Forest.renameTag (old new : String) : List Node → Edited (List Node)
  | [] => ⟨[], 0⟩
  | node :: nodes =>
    let edited := node.renameTag old new
    let rest := Forest.renameTag old new nodes
    ⟨edited.result :: rest.result, edited.count + rest.count⟩

end

end TaggedMemos
