import TaggedMemos.Forest.Node
import TaggedMemos.Memo.Payload
import TaggedMemos.Tag.Path

/-!
# The Payload of a Forest

The tags of a forest are the canonical paths of its tag leaves, each at its first occurrence.
Both functions go through the nodes in the order of `Forest.preorder`.
-/

namespace TaggedMemos

/-- A path added at the end of a list that lacks it. -/
def addOnce (paths : List String) (path : String) : List String :=
  if paths.contains path then paths else paths ++ [path]

/-- The payload with one more node taken into account. -/
def Payload.addNode (payload : Payload) : Node → Payload
  | .leaf (.tag raw) => { payload with tags := addOnce payload.tags (TagPath.normalize raw) }
  | .leaf (.link ..) | .leaf (.autoLink ..) =>
    { payload with property := { payload.property with hasLink := true } }
  | .leaf (.codeBlock ..) =>
    { payload with property := { payload.property with hasCode := true } }
  | .leaf (.embed resource) =>
    { payload with
      property := { payload.property with
        references := payload.property.references ++ [resource] } }
  | .container (.taskItem complete) _ =>
    { payload with
      property := { payload.property with
        hasTaskList := true
        hasIncompleteTasks := payload.property.hasIncompleteTasks || !complete } }
  | _ => payload

namespace Forest

/-- The payload of a forest. -/
def payload (nodes : Forest) : Payload :=
  (preorder nodes).foldl Payload.addNode {}

/-- The canonical paths of the tags of a forest, in order of first occurrence. -/
def tags (nodes : Forest) : List String :=
  nodes.leaves.foldl
    (fun paths leaf =>
      match leaf with
      | .tag raw => addOnce paths (TagPath.normalize raw)
      | _ => paths)
    []

end Forest

end TaggedMemos
