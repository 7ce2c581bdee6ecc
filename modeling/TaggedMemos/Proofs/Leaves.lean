import TaggedMemos.Forest.Writing

/-!
# The Leaves of a Forest

Walking a forest and collecting its leaves go along with putting forests together. What a forest
is written as is told by its leaves alone, so it does not matter which containers they are in.
Putting other leaves in the place of some keeps the containers, and so does leaving out all of them.

## Main results

* `leaves_append`, `leaves_container`: the leaves of forests put together.
* `writtenBy_append`, `writtenBy_container`: what such forests are written as.
* `replaceLeaves_replaceLeaves`, `leaves_replaceLeaves`: replacing leaves twice, and the leaves
  that there are afterwards.
* `skeleton_append`, `skeleton_container`: the containers of forests put together.
-/

namespace TaggedMemos

namespace Forest

/-! ### Walking -/

/-- The nodes of two forests are listed one after the other. -/
theorem preorder_append (nodes nodes' : Forest) :
    preorder (nodes ++ nodes') = preorder nodes ++ preorder nodes' := by
  induction nodes with
  | nil => rfl
  | cons node nodes ih => simp [preorder, ih]

/-! ### Leaves -/

@[simp] theorem leaves_nil : leaves [] = [] := rfl

/-- The leaves of two forests are listed one after the other. -/
@[simp] theorem leaves_append (nodes nodes' : Forest) :
    leaves (nodes ++ nodes') = leaves nodes ++ leaves nodes' := by
  simp [leaves, preorder_append]

@[simp] theorem leaves_leaf (l : Leaf) : leaves [.leaf l] = [l] := rfl

/-- A container has the leaves of its children. -/
@[simp] theorem leaves_container (kind : ContainerKind) (children : Forest) :
    leaves [.container kind children] = leaves children := by
  rw [leaves, preorder, Node.preorder, preorder, List.append_nil]
  rfl

/-- The leaves of the first node come first. -/
theorem leaves_cons (node : Node) (nodes : Forest) :
    leaves (node :: nodes) = leaves [node] ++ leaves nodes :=
  leaves_append [node] nodes

/-- A walk through leaves comes to just these. -/
theorem preorder_map_leaf (ls : List Leaf) : preorder (ls.map Node.leaf) = ls.map Node.leaf := by
  induction ls with
  | nil => rfl
  | cons l ls ih => rw [List.map_cons, preorder, Node.preorder, ih, List.singleton_append]

/-- Nodes that are leaves have these leaves. -/
@[simp] theorem leaves_map_leaf (ls : List Leaf) : leaves (ls.map Node.leaf) = ls := by
  induction ls with
  | nil => rfl
  | cons l ls ih => rw [List.map_cons, leaves_cons, ih, leaves_leaf, List.singleton_append]

/-! ### Writing -/

/-- The characters a forest is written as, given how leaves without a text are written. -/
def writtenBy (build : Leaf → List Char) (nodes : Forest) : List Char :=
  nodes.leaves.flatMap (Leaf.writtenBy build)

variable {build : Leaf → List Char}

/-- The text of a forest is made up of what it is written with. -/
theorem toMarkdownBy_eq (build : Leaf → List Char) (nodes : Forest) :
    nodes.toMarkdownBy build = String.ofList (nodes.writtenBy build) := rfl

@[simp] theorem writtenBy_nil : writtenBy build [] = [] := rfl

/-- Two forests are written one after the other. -/
@[simp] theorem writtenBy_append (nodes nodes' : Forest) :
    writtenBy build (nodes ++ nodes') = writtenBy build nodes ++ writtenBy build nodes' := by
  simp [writtenBy]

/-- A node that is a leaf is written like the leaf. -/
@[simp] theorem writtenBy_leaf (l : Leaf) : writtenBy build [.leaf l] = l.writtenBy build := by
  simp [writtenBy]

/-- A container adds nothing to what is inside. -/
@[simp] theorem writtenBy_container (kind : ContainerKind) (children : Forest) :
    writtenBy build [.container kind children] = writtenBy build children := by
  simp [writtenBy]

/-- Nodes that are leaves are written like the leaves. -/
@[simp] theorem writtenBy_map_leaf (ls : List Leaf) :
    writtenBy build (ls.map Node.leaf) = ls.flatMap (Leaf.writtenBy build) := by
  simp [writtenBy]

end Forest

/-- A leaf that keeps a text is written as that text. -/
theorem Leaf.writtenBy_of_raw {leaf : Leaf} (kept : leaf.raw ≠ "") (build : Leaf → List Char) :
    leaf.writtenBy build = leaf.raw.toList := by
  simp [Leaf.writtenBy, kept]

/-- Markup is written as it was found, whatever the writer. -/
theorem Leaf.writtenBy_markup (text : String) (build : Leaf → List Char) :
    (Leaf.markup text).writtenBy build = text.toList := by
  simp [Leaf.writtenBy, Leaf.raw]

/-- Markup is written as it was found. -/
@[simp] theorem Leaf.written_markup (text : String) :
    (Leaf.markup text).written = text.toList := by
  simp [Leaf.written, Leaf.writtenBy, Leaf.raw]

/-- Text is written as it is. -/
@[simp] theorem Leaf.written_text (text : String) : (Leaf.text text).written = text.toList := by
  simp [Leaf.written, Leaf.writtenBy, Leaf.raw]

/-- A tag is written with its number sign. -/
theorem Leaf.written_tag (raw : String) : (Leaf.tag raw).written = '#' :: raw.toList := rfl

/-- An embed is written between its brackets. -/
theorem Leaf.written_embed (resource : String) :
    (Leaf.embed resource).written = ['!', '[', '['] ++ resource.toList ++ [']', ']'] := by
  simp [Leaf.written, Leaf.writtenBy, Leaf.raw]

/-! ### Replacing leaves -/

mutual

/-- What a node becomes when every leaf is replaced in its place. -/
def Node.replaceLeaves (f : Leaf → List Leaf) : Node → List Node
  | .leaf l => (f l).map .leaf
  | .container kind children => [.container kind (Forest.replaceLeaves f children)]

/-- A forest with every leaf replaced in its place. -/
def Forest.replaceLeaves (f : Leaf → List Leaf) : List Node → List Node
  | [] => []
  | node :: nodes => node.replaceLeaves f ++ Forest.replaceLeaves f nodes

end

/-- The containers of a forest. -/
def Forest.skeleton (nodes : Forest) : Forest :=
  replaceLeaves (fun _ => []) nodes

namespace Forest

variable {f g : Leaf → List Leaf}

/-- Leaves are replaced in each of two forests. -/
theorem replaceLeaves_append (nodes nodes' : Forest) :
    replaceLeaves f (nodes ++ nodes') = replaceLeaves f nodes ++ replaceLeaves f nodes' := by
  induction nodes with
  | nil => rfl
  | cons node nodes ih => simp only [List.cons_append, replaceLeaves, ih, List.append_assoc]

/-- Where all nodes are leaves, so are the replacements. -/
theorem replaceLeaves_map_leaf (ls : List Leaf) :
    replaceLeaves f (ls.map Node.leaf) = (ls.flatMap f).map Node.leaf := by
  induction ls with
  | nil => rfl
  | cons l ls ih =>
      rw [List.map_cons, replaceLeaves, ih, Node.replaceLeaves, List.flatMap_cons, List.map_append]

end Forest

mutual

/-- Leaves replaced twice are replaced by the replacements of their replacements. -/
theorem Node.replaceLeaves_replaceLeaves (f g : Leaf → List Leaf) : (node : Node) →
    Forest.replaceLeaves g (node.replaceLeaves f) = node.replaceLeaves fun l => (f l).flatMap g
  | .leaf l => by
      rw [Node.replaceLeaves, Forest.replaceLeaves_map_leaf, Node.replaceLeaves]
  | .container kind children => by
      have below := Forest.replaceLeaves_replaceLeaves f g children
      rw [Node.replaceLeaves, Forest.replaceLeaves, Forest.replaceLeaves, List.append_nil,
        Node.replaceLeaves, Node.replaceLeaves, below]

/-- Leaves may be replaced twice, or once by what comes out of both. -/
theorem Forest.replaceLeaves_replaceLeaves (f g : Leaf → List Leaf) : (nodes : List Node) →
    Forest.replaceLeaves g (Forest.replaceLeaves f nodes) =
      Forest.replaceLeaves (fun l => (f l).flatMap g) nodes
  | [] => rfl
  | node :: nodes => by
      have first := Node.replaceLeaves_replaceLeaves f g node
      have rest := Forest.replaceLeaves_replaceLeaves f g nodes
      rw [Forest.replaceLeaves, Forest.replaceLeaves_append, first, rest, Forest.replaceLeaves]

end

mutual

/-- The leaves after a replacement are the replacements, in order. -/
theorem Node.leaves_replaceLeaves (f : Leaf → List Leaf) : (node : Node) →
    Forest.leaves (node.replaceLeaves f) = (Forest.leaves [node]).flatMap f
  | .leaf l => by
      rw [Node.replaceLeaves, Forest.leaves_map_leaf, Forest.leaves_leaf, List.flatMap_singleton]
  | .container kind children => by
      have below := Forest.leaves_replaceLeaves f children
      rw [Node.replaceLeaves, Forest.leaves_container, Forest.leaves_container, below]

/-- The leaves are those that were put in place, in order. -/
theorem Forest.leaves_replaceLeaves (f : Leaf → List Leaf) : (nodes : List Node) →
    Forest.leaves (Forest.replaceLeaves f nodes) = (Forest.leaves nodes).flatMap f
  | [] => rfl
  | node :: nodes => by
      have first := Node.leaves_replaceLeaves f node
      have rest := Forest.leaves_replaceLeaves f nodes
      rw [Forest.replaceLeaves, Forest.leaves_append, first, rest, Forest.leaves_cons node nodes,
        List.flatMap_append]

end

namespace Forest

@[simp] theorem skeleton_nil : skeleton [] = [] := rfl

/-- The skeleton of two forests is that of each. -/
@[simp] theorem skeleton_append (nodes nodes' : Forest) :
    skeleton (nodes ++ nodes') = skeleton nodes ++ skeleton nodes' :=
  replaceLeaves_append nodes nodes'

@[simp] theorem skeleton_leaf (l : Leaf) : skeleton [.leaf l] = [] := rfl

/-- Leaves leave no skeleton. -/
@[simp] theorem skeleton_map_leaf (ls : List Leaf) : skeleton (ls.map Node.leaf) = [] := by
  rw [skeleton, replaceLeaves_map_leaf, List.flatMap_eq_nil_iff.mpr fun _ _ => rfl, List.map_nil]

/-- A container stays, with the skeleton of what is inside. -/
@[simp] theorem skeleton_container (kind : ContainerKind) (children : Forest) :
    skeleton [.container kind children] = [.container kind (skeleton children)] := by
  simp [skeleton, replaceLeaves, Node.replaceLeaves]

end Forest

/-- Replacing leaves keeps every container in its place. -/
theorem Forest.skeleton_replaceLeaves (f : Leaf → List Leaf) (nodes : Forest) :
    skeleton (replaceLeaves f nodes) = skeleton nodes := by
  rw [skeleton, replaceLeaves_replaceLeaves, skeleton]
  congr 1
  funext l
  exact List.flatMap_eq_nil_iff.mpr fun _ _ => rfl

end TaggedMemos
