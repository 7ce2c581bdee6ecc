import TaggedMemos.Proofs.Payload

/-!
# What a Payload Tells of a Forest

A payload is filled in on a walk through a forest. What it tells in the end is said without the
walk: a fact holds if there is a node of some kind, at whatever depth, and tags and resources are
listed as they come among the leaves. So payloads can be put together from those of parts. For the
facts and the resources this is plain; of the tags, those that an earlier part has already are left
out.

Depth does not matter. A container passes on what is told of its children, and only a task item has
something to add.

## Main results

* `mem_preorder_iff`: the walk comes to the nodes at any depth, and to nothing else.
* `Forest.property_payload_eq`: the facts told from the nodes that the walk comes to.
* `Forest.payload_append`, `Forest.payload_container`: payloads of forests put together.
* `payload_tells_contents`: what a payload tells.
-/

namespace TaggedMemos

variable {node : Node} {nodes : Forest}

/-! ### Nodes at any depth -/

/-- A node stands in a forest, at whatever depth. -/
inductive Node.Within (node : Node) : Forest → Prop where
  /-- It is one of the nodes. -/
  | top {nodes : Forest} (member : node ∈ nodes) : node.Within nodes
  /-- It stands in one of the containers. -/
  | deeper {nodes children : Forest} {kind : ContainerKind}
      (member : .container kind children ∈ nodes) (inside : node.Within children) :
      node.Within nodes

/-- A node that is within a forest is within it with another node in front. -/
theorem Node.Within.cons {first : Node} (within : node.Within nodes) :
    node.Within (first :: nodes) := by
  cases within with
  | top member => exact .top (List.mem_cons_of_mem _ member)
  | deeper member inside => exact .deeper (List.mem_cons_of_mem _ member) inside

mutual

/-- The nodes that a walk from a node comes to are that node and those within it. -/
theorem Node.within_of_mem_preorder {node : Node} : (first : Node) → node ∈ first.preorder →
    node.Within [first]
  | .leaf l, member => .top member
  | .container kind children, member => by
      rw [Node.preorder, List.mem_cons] at member
      rcases member with rfl | member
      · exact .top List.mem_cons_self
      · exact .deeper List.mem_cons_self (Forest.within_of_mem_preorder children member)

/-- A walk through a forest comes to nothing but its nodes. -/
theorem Forest.within_of_mem_preorder {node : Node} : (nodes : List Node) →
    node ∈ Forest.preorder nodes → node.Within nodes
  | [], member => by simp [Forest.preorder] at member
  | first :: nodes, member => by
      rw [Forest.preorder, List.mem_append] at member
      rcases member with member | member
      · cases Node.within_of_mem_preorder first member with
        | top here =>
            obtain rfl := List.mem_singleton.mp here
            exact .top List.mem_cons_self
        | deeper here inside =>
            obtain rfl := List.mem_singleton.mp here
            exact .deeper List.mem_cons_self inside
      · exact (Forest.within_of_mem_preorder nodes member).cons

end

/-- What is inside of a node of a forest is listed with the forest. -/
theorem mem_preorder_of_mem {first : Node} (member : first ∈ nodes)
    (inside : node ∈ first.preorder) :
    node ∈ Forest.preorder nodes := by
  obtain ⟨before, after, rfl⟩ := List.append_of_mem member
  rw [Forest.preorder_append, Forest.preorder]
  exact List.mem_append_right _ (List.mem_append_left _ inside)

/-- **A walk comes to the nodes at any depth**, and to nothing else. -/
theorem mem_preorder_iff : node ∈ Forest.preorder nodes ↔ node.Within nodes := by
  refine ⟨Forest.within_of_mem_preorder nodes, fun within => ?_⟩
  induction within with
  | top member =>
      refine mem_preorder_of_mem member ?_
      cases node with
      | leaf l => exact List.mem_singleton_self _
      | container kind children => exact List.mem_cons_self
  | deeper member _ ih => exact mem_preorder_of_mem member (List.mem_cons_of_mem _ ih)

/-- A test holds of some node on a walk exactly if it holds of one at some depth. -/
theorem any_preorder {p : Node → Bool} :
    (Forest.preorder nodes).any p = true ↔ ∃ node : Node, node.Within nodes ∧ p node = true := by
  simp only [List.any_eq_true, mem_preorder_iff]

/-- The leaves of a forest are those at any depth. -/
theorem mem_leaves_iff {l : Leaf} : l ∈ nodes.leaves ↔ (Node.leaf l).Within nodes := by
  rw [Forest.leaves, List.mem_filterMap, ← mem_preorder_iff]
  constructor
  · rintro ⟨node, member, leaf⟩
    cases node with
    | leaf l' =>
        obtain rfl := Option.some.inj leaf
        exact member
    | container kind children => cases leaf
  · exact fun member => ⟨.leaf l, member, rfl⟩

/-! ### What single nodes tell -/

/-- Whether a node is a link or an address in angle brackets. -/
def Node.isLink : Node → Bool
  | .leaf (.link ..) | .leaf (.autoLink ..) => true
  | _ => false

/-- Whether a node is a code block. -/
def Node.isCodeBlock : Node → Bool
  | .leaf (.codeBlock ..) => true
  | _ => false

/-- Whether a node is a task item. -/
def Node.isTask : Node → Bool
  | .container (.taskItem _) _ => true
  | _ => false

/-- Whether a node is a task item that is not complete. -/
def Node.isOpenTask : Node → Bool
  | .container (.taskItem complete) _ => !complete
  | _ => false

/-- The resource that a leaf embeds. -/
def Leaf.resource? : Leaf → Option String
  | .embed resource => some resource
  | _ => none

/-- The resource that a node embeds. -/
def Node.resource? : Node → Option String
  | .leaf l => l.resource?
  | .container .. => none

/-- The canonical path of a leaf that is a tag. -/
def Leaf.tagPath? : Leaf → Option String
  | .tag raw => some (TagPath.normalize raw)
  | _ => none

/-- What one node adds to the facts told before. -/
theorem Payload.property_addNode (payload : Payload) (node : Node) :
    (payload.addNode node).property =
      { hasLink := payload.property.hasLink || node.isLink
        hasTaskList := payload.property.hasTaskList || node.isTask
        hasCode := payload.property.hasCode || node.isCodeBlock
        hasIncompleteTasks := payload.property.hasIncompleteTasks || node.isOpenTask
        references := payload.property.references ++ node.resource?.toList } := by
  cases node with
  | leaf l =>
      cases l <;>
        simp [addNode, Node.isLink, Node.isTask, Node.isCodeBlock, Node.isOpenTask, Node.resource?,
          Leaf.resource?]
  | container kind children =>
      cases kind <;>
        simp [addNode, Node.isLink, Node.isTask, Node.isCodeBlock, Node.isOpenTask, Node.resource?]

/-- What the nodes on a walk add to the facts told before. -/
theorem property_foldl_addNode_eq (walked : List Node) (payload : Payload) :
    (walked.foldl Payload.addNode payload).property =
      { hasLink := payload.property.hasLink || walked.any Node.isLink
        hasTaskList := payload.property.hasTaskList || walked.any Node.isTask
        hasCode := payload.property.hasCode || walked.any Node.isCodeBlock
        hasIncompleteTasks := payload.property.hasIncompleteTasks || walked.any Node.isOpenTask
        references := payload.property.references ++ walked.filterMap Node.resource? } := by
  induction walked generalizing payload with
  | nil => simp
  | cons node walked ih =>
      rw [List.foldl_cons, ih, Payload.property_addNode, List.filterMap_cons]
      simp only [List.any_cons, Bool.or_assoc, List.append_assoc]
      cases node.resource? <;> rfl

namespace Forest

/-- What is read off the leaves can be read off the nodes on a walk. -/
theorem filterMap_leaves {f : Leaf → Option String} {g : Node → Option String}
    (same : ∀ node : Node, node.leaf?.bind f = g node) (nodes : Forest) :
    nodes.leaves.filterMap f = (preorder nodes).filterMap g := by
  rw [leaves, List.filterMap_filterMap]
  exact List.filterMap_congr fun node _ => same node

/-- **The facts of a payload**, told from the nodes that a walk comes to. -/
theorem property_payload_eq (nodes : Forest) :
    nodes.payload.property =
      { hasLink := (preorder nodes).any Node.isLink
        hasTaskList := (preorder nodes).any Node.isTask
        hasCode := (preorder nodes).any Node.isCodeBlock
        hasIncompleteTasks := (preorder nodes).any Node.isOpenTask
        references := nodes.leaves.filterMap Leaf.resource? } := by
  have resources := nodes.filterMap_leaves (f := Leaf.resource?) (g := Node.resource?)
    fun node => by cases node <;> rfl
  rw [payload, property_foldl_addNode_eq, resources]
  simp

/-- The tags of a payload are the paths of the leaves that are tags. -/
theorem tagPaths_eq (nodes : Forest) : nodes.tagPaths = nodes.leaves.filterMap Leaf.tagPath? := by
  have paths := nodes.filterMap_leaves (f := Leaf.tagPath?) (g := Node.tagPath?) fun node => by
    cases node with
    | leaf l => cases l <;> rfl
    | container kind children => rfl
  rw [paths, tagPaths, heads, List.filterMap_map]
  exact List.filterMap_congr fun node _ => node.tagPath?_shallow

end Forest

/-! ### Payloads put together -/

/-- What two payloads tell together: the tags of the second one that the first one lacks come behind
those of the first one. -/
def Payload.join (payload payload' : Payload) : Payload where
  tags := payload.tags ++ payload'.tags.filter (· ∉ payload.tags)
  property :=
    { hasLink := payload.property.hasLink || payload'.property.hasLink
      hasTaskList := payload.property.hasTaskList || payload'.property.hasTaskList
      hasCode := payload.property.hasCode || payload'.property.hasCode
      hasIncompleteTasks :=
        payload.property.hasIncompleteTasks || payload'.property.hasIncompleteTasks
      references := payload.property.references ++ payload'.property.references }

namespace Forest

/-- **The payload of a concatenation** is told by those of its parts. -/
theorem payload_append (nodes nodes' : Forest) :
    payload (nodes ++ nodes') = nodes.payload.join nodes'.payload := by
  refine Payload.eq_of ?_ ?_
  · have both : tagPaths (nodes ++ nodes') = nodes.tagPaths ++ nodes'.tagPaths := by
      simp [tagPaths_eq]
    have later : nodes'.tagPaths.removeAll nodes.tagPaths =
        nodes'.tagPaths.filter (· ∉ nodes.payload.tags) := by
      refine List.filter_congr fun path _ => ?_
      simp [tags_payload, mem_firsts]
    calc (payload (nodes ++ nodes')).tags
        = (nodes.tagPaths ++ nodes'.tagPaths).eraseDups := by
          rw [tags_payload, both, firsts_eq_eraseDups]
      _ = nodes.tagPaths.eraseDups ++
            (nodes'.tagPaths.filter (· ∉ nodes.payload.tags)).eraseDups := by
          rw [List.eraseDups_append, later]
      _ = nodes.payload.tags ++ nodes'.payload.tags.filter (· ∉ nodes.payload.tags) := by
          rw [← firsts_eq_eraseDups, ← firsts_eq_eraseDups, firsts_filter, ← tags_payload,
            ← tags_payload]
  · rw [Payload.join, property_payload_eq, property_payload_eq, property_payload_eq,
      preorder_append, leaves_append]
    simp

/-- **The payload of a container** is that of its children, and a task item adds that it is one. -/
theorem payload_container (kind : ContainerKind) (children : Forest) :
    payload [.container kind children] =
      match kind with
      | .taskItem complete =>
        { children.payload with
          property := { children.payload.property with
            hasTaskList := true
            hasIncompleteTasks := children.payload.property.hasIncompleteTasks || !complete } }
      | _ => children.payload := by
  have tags : (payload [.container kind children]).tags = children.payload.tags := by
    rw [tags_payload, tags_payload, tagPaths_eq, tagPaths_eq, leaves_container]
  have walk : preorder [.container kind children] =
      .container kind children :: preorder children := by
    simp [preorder, Node.preorder]
  have facts := property_payload_eq [.container kind children]
  rw [walk, leaves_container] at facts
  cases kind with
  | taskItem complete =>
      refine Payload.eq_of tags ?_
      rw [facts, property_payload_eq]
      simp [Node.isLink, Node.isTask, Node.isCodeBlock, Node.isOpenTask, Bool.or_comm]
  | _ =>
      refine Payload.eq_of tags ?_
      rw [facts, property_payload_eq]
      simp [Node.isLink, Node.isTask, Node.isCodeBlock, Node.isOpenTask]

end Forest

/-- **What a payload tells.** Its tags are those of the forest: the canonical paths of the tag
leaves at any depth, each at its first place. A fact holds exactly if a node of its kind stands in
the forest, at any depth, and the resources are those of all leaves that embed one. The payload of a
concatenation is put together from the payloads of its parts, and a container has the payload of its
children, to which a task item adds that it is one, and whether it is complete. -/
theorem payload_tells_contents :
    (∀ nodes : Forest,
      nodes.payload.tags = nodes.tags ∧
      nodes.tags = (nodes.leaves.filterMap Leaf.tagPath?).eraseDups ∧
      nodes.tags.Nodup ∧
      (∀ l : Leaf, l ∈ nodes.leaves ↔ (Node.leaf l).Within nodes) ∧
      (nodes.payload.property.hasLink = true ↔
        ∃ node : Node, node.Within nodes ∧ node.isLink = true) ∧
      (nodes.payload.property.hasCode = true ↔
        ∃ node : Node, node.Within nodes ∧ node.isCodeBlock = true) ∧
      (nodes.payload.property.hasTaskList = true ↔
        ∃ node : Node, node.Within nodes ∧ node.isTask = true) ∧
      (nodes.payload.property.hasIncompleteTasks = true ↔
        ∃ node : Node, node.Within nodes ∧ node.isOpenTask = true) ∧
      nodes.payload.property.references = nodes.leaves.filterMap Leaf.resource?) ∧
    (∀ nodes nodes' : Forest,
      Forest.payload (nodes ++ nodes') = nodes.payload.join nodes'.payload) ∧
    ∀ (kind : ContainerKind) (children : Forest), Forest.payload [.container kind children] =
      match kind with
      | .taskItem complete =>
        { children.payload with
          property := { children.payload.property with
            hasTaskList := true
            hasIncompleteTasks := children.payload.property.hasIncompleteTasks || !complete } }
      | _ => children.payload := by
  refine ⟨fun nodes => ?_, Forest.payload_append, Forest.payload_container⟩
  have tags : nodes.tags = (nodes.leaves.filterMap Leaf.tagPath?).eraseDups := by
    rw [← nodes.tags_payload_eq, nodes.tags_payload, firsts_eq_eraseDups, nodes.tagPaths_eq]
  have once : nodes.tags.Nodup := nodes.tags_payload_eq ▸ nodes.nodup_tags_payload
  rw [nodes.property_payload_eq]
  exact ⟨nodes.tags_payload_eq, tags, once, fun _ => mem_leaves_iff, any_preorder, any_preorder,
    any_preorder, any_preorder, rfl⟩

/-- Two spellings of a tag, one of them in an open task, and a resource embedded twice. -/
example :
    Forest.payload [.container .quote [.leaf (.embed "r"), .leaf (.tag "a/")],
      .container (.taskItem false) [.leaf (.tag "b"), .leaf (.tag "/a"), .leaf (.embed "r")]] =
      { tags := ["/a", "/b"]
        property :=
          { hasTaskList := true
            hasIncompleteTasks := true
            references := ["r", "r"] } } := by
  decide +kernel

end TaggedMemos
