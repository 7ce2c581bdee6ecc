import TaggedMemos.Forest.Edit
import TaggedMemos.Forest.Payload
import TaggedMemos.Proofs.FirstOccurrence
import TaggedMemos.Proofs.Leaves

/-!
# The Payload of an Edited Forest

A payload is collected from the nodes of a forest in order, and nothing but the kind of a
container counts for it. Editing the tags of a forest acts on this list of nodes node by node:
renaming replaces some of them and removal leaves some of them out. The payload of an edited
forest is therefore told by the payload before.

## Main results

* `firsts_eq_eraseDups`: first occurrences are what the library calls a list without duplicates.
* `tags_payload`: the tags of a payload are the paths of the tag leaves at their first occurrence.
* `payload_removeTag`: removal leaves one tag out and keeps everything else.
* `payload_renameTag`: renaming replaces one tag and keeps first occurrences.
-/

namespace TaggedMemos

variable {path old new : String} {paths met : List String}

/-! ### First occurrences -/

/-- Paths at their first occurrence. -/
def firsts (paths : List String) : List String :=
  paths.foldl addOnce []

/-- A path that is added is there, with all that was there before. -/
theorem mem_addOnce {path' : String} : path' ∈ addOnce met path ↔ path' ∈ met ∨ path' = path := by
  rw [addOnce]
  split
  · next known =>
      rw [List.contains_iff_mem] at known
      constructor
      · exact .inl
      · rintro (member | rfl)
        · exact member
        · exact known
  · simp

/-- Of many paths, all are there afterwards. -/
theorem mem_foldl_addOnce : path ∈ paths.foldl addOnce met ↔ path ∈ met ∨ path ∈ paths := by
  induction paths generalizing met with
  | nil => simp
  | cons first paths ih => rw [List.foldl_cons, ih, mem_addOnce, List.mem_cons, or_assoc]

/-- First occurrences are the same paths. -/
theorem mem_firsts : path ∈ firsts paths ↔ path ∈ paths := by
  simp [firsts, mem_foldl_addOnce]

/-- First occurrences make up the list without duplicates. -/
theorem firsts_eq_eraseDups (paths : List String) : firsts paths = paths.eraseDups := by
  induction paths using List.reverseRecOn with
  | nil => rfl
  | append_singleton paths path ih =>
      rw [firsts, List.foldl_append, ← firsts, ih, eraseDups_concat]
      by_cases known : path ∈ paths
      · simp [addOnce, known]
      · simp [addOnce, known]

/-- Among the first occurrences, nothing occurs twice. -/
theorem nodup_firsts (paths : List String) : (firsts paths).Nodup := by
  rw [firsts_eq_eraseDups]
  exact nodup_eraseDups paths

/-- Leaving paths out before or after comes to the same. -/
theorem foldl_addOnce_filter (keep : String → Bool) (paths met : List String) :
    (paths.filter keep).foldl addOnce (met.filter keep) =
      (paths.foldl addOnce met).filter keep := by
  induction paths generalizing met with
  | nil => rfl
  | cons first paths ih =>
      rw [List.foldl_cons, ← ih]
      cases kept : keep first with
      | true =>
          rw [List.filter_cons_of_pos kept, List.foldl_cons]
          congr 1
          by_cases known : first ∈ met
          · simp [addOnce, known, kept]
          · simp [addOnce, known, kept]
      | false =>
          rw [List.filter_cons_of_neg (by simp [kept])]
          congr 1
          by_cases known : first ∈ met
          · simp [addOnce, known]
          · simp [addOnce, known, kept]

/-- First occurrences may be picked before or after a selection. -/
theorem firsts_filter (keep : String → Bool) (paths : List String) :
    firsts (paths.filter keep) = (firsts paths).filter keep :=
  foldl_addOnce_filter keep paths []

/-- Replacing paths before or after comes to the same, if what falls together is taken once. -/
theorem foldl_addOnce_map (f : String → String) (paths met : List String) :
    (paths.map f).foldl addOnce (firsts (met.map f)) =
      firsts ((paths.foldl addOnce met).map f) := by
  induction paths generalizing met with
  | nil => rfl
  | cons first paths ih =>
      rw [List.map_cons, List.foldl_cons, List.foldl_cons, ← ih]
      congr 1
      by_cases known : first ∈ met
      · have known' : f first ∈ firsts (met.map f) := mem_firsts.mpr (List.mem_map_of_mem known)
        simp [addOnce, known, known']
      · simp [addOnce, known, firsts, List.foldl_append]

/-- First occurrences of images may be picked from those of first occurrences. -/
theorem firsts_map (f : String → String) (paths : List String) :
    firsts (paths.map f) = firsts ((firsts paths).map f) :=
  foldl_addOnce_map f paths []

/-! ### The nodes that a payload is collected from -/

/-- A node without what is below it. -/
def Node.shallow : Node → Node
  | .leaf l => .leaf l
  | .container kind _ => .container kind []

/-- The canonical path of a tag leaf. -/
def Node.tagPath? : Node → Option String
  | .leaf (.tag raw) => some (TagPath.normalize raw)
  | _ => none

/-- A node and every node below it, each without what is below it. -/
def Node.heads (node : Node) : List Node :=
  node.preorder.map Node.shallow

/-- Every node of a forest without what is below it, each node before its children. -/
def Forest.heads (nodes : Forest) : List Node :=
  (preorder nodes).map Node.shallow

/-- A leaf has nothing below it. -/
theorem Node.heads_leaf (l : Leaf) : (Node.leaf l).heads = [.leaf l] := rfl

/-- A container comes before what is inside. -/
theorem Node.heads_container (kind : ContainerKind) (children : List Node) :
    (Node.container kind children).heads = .container kind [] :: Forest.heads children := by
  simp [heads, preorder, shallow, Forest.heads]

/-- An empty forest has no nodes. -/
theorem Forest.heads_nil : heads [] = [] := by
  simp [heads, preorder]

/-- The nodes of the first tree come first. -/
theorem Forest.heads_cons (node : Node) (nodes : List Node) :
    heads (node :: nodes) = node.heads ++ heads nodes := by
  simp [heads, Node.heads, preorder]

/-- A node is on the same path without what is below it. -/
theorem Node.tagPath?_shallow (node : Node) : node.shallow.tagPath? = node.tagPath? := by
  cases node <;> rfl

/-- A node adds the same to a payload without what is below it. -/
theorem Payload.addNode_shallow (payload : Payload) (node : Node) :
    payload.addNode node.shallow = payload.addNode node := by
  cases node with
  | leaf l => rfl
  | container kind children => cases kind <;> rfl

/-- A payload is collected from the nodes without what is below them. -/
theorem Forest.payload_eq (nodes : Forest) :
    nodes.payload = nodes.heads.foldl Payload.addNode {} := by
  rw [payload, heads, List.foldl_map]
  simp only [Payload.addNode_shallow]

/-- What a node adds to the tags. -/
theorem Payload.tags_addNode (payload : Payload) (node : Node) :
    (payload.addNode node).tags = node.tagPath?.toList.foldl addOnce payload.tags := by
  cases node with
  | leaf l => cases l <;> rfl
  | container kind children => cases kind <;> rfl

/-- A tag leaf adds no fact. -/
theorem Payload.property_addNode_tag {payload : Payload} {node : Node}
    (tag : node.tagPath?.isSome = true) : (payload.addNode node).property = payload.property := by
  cases node with
  | leaf l =>
      cases l with
      | tag raw => rfl
      | _ => cases tag
  | container kind children => cases tag

/-- The facts that a node adds do not depend on the tags. -/
theorem Payload.property_addNode_congr {payload payload' : Payload} (node : Node)
    (same : payload.property = payload'.property) :
    (payload.addNode node).property = (payload'.addNode node).property := by
  cases node with
  | leaf l => cases l <;> simp [addNode, same]
  | container kind children => cases kind <;> simp [addNode, same]

/-- The tags that nodes add are their paths, each once. -/
theorem tags_foldl_addNode (nodes : List Node) (payload : Payload) :
    (nodes.foldl Payload.addNode payload).tags =
      (nodes.filterMap Node.tagPath?).foldl addOnce payload.tags := by
  induction nodes generalizing payload with
  | nil => rfl
  | cons node nodes ih =>
      rw [List.foldl_cons, ih, Payload.tags_addNode, List.filterMap_cons]
      cases node.tagPath? <;> rfl

/-- Tags add nothing to the properties. -/
theorem property_foldl_addNode (nodes : List Node) {payload payload' : Payload}
    (same : payload.property = payload'.property) :
    (nodes.foldl Payload.addNode payload).property =
      ((nodes.filter (·.tagPath?.isNone)).foldl Payload.addNode payload').property := by
  induction nodes generalizing payload payload' with
  | nil => exact same
  | cons node nodes ih =>
      cases tag : node.tagPath? with
      | some path =>
          rw [List.foldl_cons, List.filter_cons_of_neg (by simp [tag])]
          exact ih ((Payload.property_addNode_tag (by simp [tag])).trans same)
      | none =>
          rw [List.foldl_cons, List.filter_cons_of_pos (by simp [tag]), List.foldl_cons]
          exact ih (Payload.property_addNode_congr node same)

namespace Forest

/-- The canonical paths of the tag leaves, in order. -/
def tagPaths (nodes : Forest) : List String :=
  nodes.heads.filterMap Node.tagPath?

/-- The tags of a payload are the paths of the tag leaves at their first occurrence. -/
theorem tags_payload (nodes : Forest) : nodes.payload.tags = firsts nodes.tagPaths := by
  rw [payload_eq, tags_foldl_addNode]
  rfl

/-- The tags of a forest are those of its payload. -/
theorem tags_payload_eq (nodes : Forest) : nodes.payload.tags = nodes.tags := by
  rw [tags_payload, firsts, tagPaths, heads, tags, leaves]
  generalize preorder nodes = walked
  generalize ([] : List String) = met
  induction walked generalizing met with
  | nil => rfl
  | cons node walked ih =>
      cases node with
      | leaf l => cases l <;> exact ih _
      | container kind children => exact ih _

/-- A payload names each tag once. -/
theorem nodup_tags_payload (nodes : Forest) : nodes.payload.tags.Nodup := by
  rw [tags_payload]
  exact nodup_firsts _

/-- The facts of a payload come from the nodes that are no tags. -/
theorem property_payload (nodes : Forest) :
    nodes.payload.property =
      ((nodes.heads.filter (·.tagPath?.isNone)).foldl Payload.addNode {}).property := by
  rw [payload_eq]
  exact property_foldl_addNode _ rfl

/-- The paths of the tag leaves are those of the leaves that are tags. -/
theorem mem_tagPaths {nodes : Forest} :
    path ∈ nodes.tagPaths ↔ ∃ raw, .tag raw ∈ nodes.leaves ∧ path = TagPath.normalize raw := by
  simp only [tagPaths, heads, leaves, List.mem_filterMap, List.mem_map]
  constructor
  · rintro ⟨_, ⟨node, member, rfl⟩, tag⟩
    cases node with
    | leaf l =>
        cases l with
        | tag raw => exact ⟨raw, ⟨_, member, rfl⟩, (Option.some.inj tag).symm⟩
        | _ => cases tag
    | container kind children => cases tag
  · rintro ⟨raw, ⟨node, member, leaf⟩, rfl⟩
    cases node with
    | leaf l =>
        obtain rfl := Option.some.inj leaf
        exact ⟨_, ⟨_, member, rfl⟩, rfl⟩
    | container kind children => cases leaf

/-- A payload carries a tag exactly if some tag leaf has its path. -/
theorem hasTag_payload {nodes : Forest} :
    nodes.payload.hasTag path = true ↔
      ∃ raw, .tag raw ∈ nodes.leaves ∧ path = TagPath.normalize raw := by
  rw [Payload.hasTag, List.contains_iff_mem, tags_payload, mem_firsts, mem_tagPaths]

end Forest

/-! ### Edits -/

/-- A node is on a path exactly if this is the path of its tag. -/
theorem Node.isTagOn_iff {node : Node} : node.isTagOn path = true ↔ node.tagPath? = some path := by
  cases node with
  | leaf l => cases l <;> simp [isTagOn, tagPath?]
  | container kind children => simp [isTagOn, tagPath?]

mutual

/-- Removal below a node leaves the tag leaves on the path out of its nodes. -/
theorem Node.heads_removeTag (path : String) : (node : Node) → node.isTagOn path = false →
    (node.removeTag path).result.heads = node.heads.filter fun n => !n.isTagOn path
  | .leaf l, other => by
      rw [Node.removeTag, Node.heads_leaf, List.filter_cons_of_pos (by simp [other]),
        List.filter_nil]
  | .container kind children, _ => by
      have below := Forest.heads_removeTag path children
      rw [Node.removeTag, Node.heads_container, Node.heads_container,
        List.filter_cons_of_pos rfl, below]

/-- Removal leaves the tag leaves on the path out of the nodes. -/
theorem Forest.heads_removeTag (path : String) : (nodes : List Node) →
    Forest.heads (Forest.removeTag path nodes).result =
      (Forest.heads nodes).filter fun n => !n.isTagOn path
  | [] => by simp [Forest.removeTag, Forest.heads_nil]
  | node :: nodes => by
      have rest := Forest.heads_removeTag path nodes
      rw [Forest.removeTag, Forest.heads_cons, List.filter_append, ← rest]
      cases on : node.isTagOn path with
      | true =>
          obtain ⟨l, rfl⟩ : ∃ l, node = .leaf l := by
            cases node with
            | leaf l => exact ⟨l, rfl⟩
            | container kind children => cases on
          rw [Node.heads_leaf, List.filter_cons_of_neg (by simp [on])]
          rfl
      | false =>
          rw [if_neg (by simp), Forest.heads_cons, Node.heads_removeTag path node on]

end

mutual

/-- Renaming below a node renames its nodes one by one. -/
theorem Node.heads_renameTag (old new : String) : (node : Node) →
    (node.renameTag old new).result.heads =
      node.heads.map fun n => (n.renameTag old new).result
  | .leaf l => by simp [Node.renameTag, Node.heads_leaf]
  | .container kind children => by
      have below := Forest.heads_renameTag old new children
      rw [Node.renameTag, Node.heads_container, Node.heads_container, List.map_cons, below]
      rfl

/-- Renaming renames the nodes one by one. -/
theorem Forest.heads_renameTag (old new : String) : (nodes : List Node) →
    Forest.heads (Forest.renameTag old new nodes).result =
      (Forest.heads nodes).map fun n => (n.renameTag old new).result
  | [] => by simp [Forest.renameTag, Forest.heads_nil]
  | node :: nodes => by
      have first := Node.heads_renameTag old new node
      have rest := Forest.heads_renameTag old new nodes
      rw [Forest.renameTag, Forest.heads_cons, Forest.heads_cons, List.map_append, ← first, ← rest]

end

/-- What renaming makes of a path. -/
def renamedPath (old new path : String) : String :=
  if path = old then new else path

/-- Renaming a node renames its path, and makes no tags. -/
theorem Node.tagPath?_renameTag (canonical : TagPath.normalize (TagPath.withoutSlash new) = new)
    (node : Node) :
    (node.renameTag old new).result.tagPath? = node.tagPath?.map (renamedPath old new) := by
  cases node with
  | leaf l =>
      cases l with
      | tag raw =>
          by_cases on : TagPath.normalize raw = old
          · simp [renameTag, Leaf.renameTag, tagPath?, on, renamedPath, canonical]
          · simp [renameTag, Leaf.renameTag, tagPath?, on, renamedPath]
      | _ => rfl
  | container kind children => rfl

/-- Renaming leaves a node that is no tag as it is, but for what is below it. -/
theorem Node.shallow_renameTag {node : Node} (other : node.tagPath? = none) :
    (node.shallow.renameTag old new).result = node.shallow := by
  cases node with
  | leaf l =>
      cases l with
      | tag raw => cases other
      | _ => rfl
  | container kind children => rfl

/-- Payloads are equal if their tags and their properties are. -/
theorem Payload.eq_of {payload payload' : Payload} (tags : payload.tags = payload'.tags)
    (property : payload.property = payload'.property) : payload = payload' := by
  cases payload
  cases payload'
  rw [Payload.mk.injEq]
  exact ⟨tags, property⟩

namespace Forest

/-- **The payload after a removal** is the one before without the tag. -/
theorem payload_removeTag (path : String) (nodes : Forest) :
    payload (removeTag path nodes).result =
      { nodes.payload with tags := nodes.payload.tags.filter (· != path) } := by
  have heads := heads_removeTag path nodes
  refine Payload.eq_of ?_ ?_
  · simp only
    rw [tags_payload, tags_payload, ← firsts_filter]
    congr 1
    rw [tagPaths, tagPaths, heads, List.filter_filterMap, List.filterMap_filter]
    congr 1
    funext node
    cases tag : node.tagPath? with
    | none => simp
    | some path' =>
        by_cases same : path' = path
        · have on : node.isTagOn path = true := Node.isTagOn_iff.mpr (same ▸ tag)
          simp [on, same, Option.filter]
        · have other : node.isTagOn path = false := by
            rw [Bool.eq_false_iff, ne_eq, Node.isTagOn_iff, tag]
            simpa using same
          simp [other, same, Option.filter]
  · simp only
    rw [property_payload, property_payload, heads, List.filter_filter]
    congr 2
    refine List.filter_congr fun node _ => ?_
    cases tag : node.tagPath? with
    | none =>
        have other : node.isTagOn path = false := by
          rw [Bool.eq_false_iff, ne_eq, Node.isTagOn_iff, tag]
          simp
        simp [other]
    | some _ => rfl

/-- **The payload after a renaming** has the new tag in place of the old one, where neither came
before. -/
theorem payload_renameTag (canonical : TagPath.normalize (TagPath.withoutSlash new) = new)
    (nodes : Forest) :
    payload (renameTag old new nodes).result =
      { nodes.payload with tags := firsts (nodes.payload.tags.map (renamedPath old new)) } := by
  have heads := heads_renameTag old new nodes
  refine Payload.eq_of ?_ ?_
  · simp only
    rw [tags_payload, tags_payload, ← firsts_map]
    congr 1
    rw [tagPaths, tagPaths, heads, List.filterMap_map, List.map_filterMap]
    congr 1
    funext node
    exact Node.tagPath?_renameTag canonical node
  · simp only
    rw [property_payload, property_payload, heads]
    congr 2
    rw [Forest.heads, List.map_map, List.filter_map, List.filter_map]
    have same : (fun n : Node => n.tagPath?.isNone) ∘
          (fun n => (n.renameTag old new).result) ∘ Node.shallow =
        (fun n : Node => n.tagPath?.isNone) ∘ Node.shallow := by
      funext node
      simp [Node.tagPath?_renameTag canonical]
    rw [same]
    refine List.map_congr_left fun node member => ?_
    have other := (List.mem_filter.mp member).2
    rw [Function.comp_apply, Option.isNone_iff_eq_none, Node.tagPath?_shallow] at other
    exact Node.shallow_renameTag other

end Forest

end TaggedMemos
