import TaggedMemos.Proofs.OneMemo

/-!
# The Text of an Edited Memo

Removal goes through a forest level by level and leaves nodes out, renaming goes through it node by
node, and writing collects its leaves. All three agree, since an edit only puts other leaves in the
place of some: `Forest.replaceLeaves` does that for any choice of leaves, and containers stay where
they are. What a forest is written as afterwards, how many leaves were touched and what a second
removal finds are then questions about its list of leaves.

## Main results

* `TagEdit.forest_eq`, `TagEdit.count_eq`: an edit replaces the leaves on its path, and counts them.
* `TagEdit.toMarkdownBy_forest`: what an edited forest is written as.
* `edited_text_exact`: what the text of a memo is after an edit.
-/

namespace TaggedMemos

open Collection

/-! ### Edits replace leaves -/

/-- Whether a leaf is a tag with the given canonical path. -/
def Leaf.isTagOn (path : String) : Leaf → Bool
  | tag raw => TagPath.normalize raw == path
  | _ => false

/-- A node that is a leaf is on a path if the leaf is. -/
theorem Node.isTagOn_leaf (path : String) (l : Leaf) :
    (Node.leaf l).isTagOn path = l.isTagOn path := by
  cases l <;> rfl

namespace TagEdit

/-- What an edit puts in the place of a leaf. -/
def replacement : TagEdit → Leaf → List Leaf
  | remove path, l => if l.isTagOn path then [] else [l]
  | rename old new, l => if l.isTagOn old then [.tag (TagPath.withoutSlash new)] else [l]

/-- The number of leaves that an edit reports. -/
def count : TagEdit → Forest → Nat
  | remove path, nodes => (Forest.removeTag path nodes).count
  | rename old new, nodes => (Forest.renameTag old new nodes).count

end TagEdit

mutual

/-- A node that is not the tag itself is kept by a removal, with its leaves replaced, and the count
is that of the tags within. -/
theorem Node.removeTag_eq (path : String) : (node : Node) → node.isTagOn path = false →
    [(node.removeTag path).result] = node.replaceLeaves (TagEdit.remove path).replacement ∧
      (node.removeTag path).count = (Forest.leaves [node]).countP (Leaf.isTagOn path)
  | .leaf l, other => by
      rw [Node.isTagOn_leaf] at other
      simp [Node.removeTag, Node.replaceLeaves, TagEdit.replacement, other]
  | .container kind children, _ => by
      obtain ⟨result, count⟩ := Forest.removeTag_eq path children
      rw [Node.removeTag, Node.replaceLeaves, Forest.leaves_container, result]
      exact ⟨rfl, count⟩

/-- Removal replaces the leaves on the path by nothing, and counts them. -/
theorem Forest.removeTag_eq (path : String) : (nodes : List Node) →
    (Forest.removeTag path nodes).result =
        Forest.replaceLeaves (TagEdit.remove path).replacement nodes ∧
      (Forest.removeTag path nodes).count = (Forest.leaves nodes).countP (Leaf.isTagOn path)
  | [] => ⟨rfl, rfl⟩
  | node :: nodes => by
      obtain ⟨result, count⟩ := Forest.removeTag_eq path nodes
      rw [Forest.removeTag, Forest.replaceLeaves, Forest.leaves_cons, List.countP_append,
        ← result, ← count]
      cases on : node.isTagOn path with
      | true =>
          obtain ⟨l, rfl⟩ : ∃ l, node = .leaf l := by
            cases node with
            | leaf l => exact ⟨l, rfl⟩
            | container kind children => cases on
          rw [Node.isTagOn_leaf] at on
          simp [Node.replaceLeaves, TagEdit.replacement, on, Nat.add_comm]
      | false =>
          obtain ⟨first, counted⟩ := Node.removeTag_eq path node on
          rw [if_neg (by simp), ← first, ← counted]
          exact ⟨rfl, rfl⟩

end

/-- A renaming replaces a leaf by one leaf, and counts it if it is the tag. -/
theorem Leaf.renameTag_eq (old new : String) (l : Leaf) :
    [(l.renameTag old new).result] = (TagEdit.rename old new).replacement l ∧
      (l.renameTag old new).count = [l].countP (Leaf.isTagOn old) := by
  cases l with
  | tag raw =>
      by_cases on : TagPath.normalize raw = old
      · simp [renameTag, TagEdit.replacement, isTagOn, on]
      · simp [renameTag, TagEdit.replacement, isTagOn, on]
  | _ => exact ⟨rfl, rfl⟩

mutual

/-- A renaming keeps a node with its leaves replaced, and counts the tags within. -/
theorem Node.renameTag_eq (old new : String) : (node : Node) →
    [(node.renameTag old new).result] =
        node.replaceLeaves (TagEdit.rename old new).replacement ∧
      (node.renameTag old new).count = (Forest.leaves [node]).countP (Leaf.isTagOn old)
  | .leaf l => by
      obtain ⟨result, count⟩ := Leaf.renameTag_eq old new l
      rw [Node.renameTag, Node.replaceLeaves, ← result, Forest.leaves_leaf, ← count]
      exact ⟨rfl, rfl⟩
  | .container kind children => by
      obtain ⟨result, count⟩ := Forest.renameTag_eq old new children
      rw [Node.renameTag, Node.replaceLeaves, Forest.leaves_container, result]
      exact ⟨rfl, count⟩

/-- Renaming replaces the leaves on the old path by one on the new path each, and counts them. -/
theorem Forest.renameTag_eq (old new : String) : (nodes : List Node) →
    (Forest.renameTag old new nodes).result =
        Forest.replaceLeaves (TagEdit.rename old new).replacement nodes ∧
      (Forest.renameTag old new nodes).count = (Forest.leaves nodes).countP (Leaf.isTagOn old)
  | [] => ⟨rfl, rfl⟩
  | node :: nodes => by
      obtain ⟨first, counted⟩ := Node.renameTag_eq old new node
      obtain ⟨result, count⟩ := Forest.renameTag_eq old new nodes
      rw [Forest.renameTag, Forest.replaceLeaves, Forest.leaves_cons, List.countP_append,
        ← first, ← counted, ← result, ← count]
      exact ⟨rfl, rfl⟩

end

namespace TagEdit

/-- An edit replaces leaves. -/
theorem forest_eq (edit : TagEdit) (nodes : Forest) :
    edit.forest nodes = Forest.replaceLeaves edit.replacement nodes := by
  cases edit with
  | remove path => exact (Forest.removeTag_eq path nodes).1
  | rename old new => exact (Forest.renameTag_eq old new nodes).1

/-- An edit reports the number of tag leaves on its path. -/
theorem count_eq (edit : TagEdit) (nodes : Forest) :
    edit.count nodes = nodes.leaves.countP (Leaf.isTagOn edit.path) := by
  cases edit with
  | remove path => exact (Forest.removeTag_eq path nodes).2
  | rename old new => exact (Forest.renameTag_eq old new nodes).2

/-- An edit drops no container. -/
theorem skeleton_forest (edit : TagEdit) (nodes : Forest) :
    Forest.skeleton (edit.forest nodes) = Forest.skeleton nodes := by
  rw [forest_eq]
  exact Forest.skeleton_replaceLeaves _ nodes

/-- What a removal puts in the place of a leaf, another removal leaves as it is. -/
theorem flatMap_replacement_remove (path : String) (l : Leaf) :
    ((remove path).replacement l).flatMap (remove path).replacement =
      (remove path).replacement l := by
  by_cases on : l.isTagOn path = true
  · simp [replacement, on]
  · simp [replacement, on]

/-- A second removal finds nothing. -/
theorem removeTag_forest_remove (path : String) (nodes : Forest) :
    Forest.removeTag path ((remove path).forest nodes) = ⟨(remove path).forest nodes, 0⟩ := by
  obtain ⟨result, count⟩ := Forest.removeTag_eq path ((remove path).forest nodes)
  have same : (Forest.removeTag path ((remove path).forest nodes)).result =
      (remove path).forest nodes := by
    rw [result, forest_eq, Forest.replaceLeaves_replaceLeaves]
    congr 1
    funext l
    exact flatMap_replacement_remove path l
  have none : (Forest.removeTag path ((remove path).forest nodes)).count = 0 := by
    rw [count, forest_eq, Forest.leaves_replaceLeaves, List.countP_eq_zero]
    intro l member
    obtain ⟨l', -, member⟩ := List.mem_flatMap.mp member
    by_cases on : l'.isTagOn path = true
    · simp [replacement, on] at member
    · simp only [replacement, on] at member
      simpa [List.mem_singleton.mp member] using on
  calc Forest.removeTag path ((remove path).forest nodes)
    _ = ⟨(Forest.removeTag path ((remove path).forest nodes)).result,
          (Forest.removeTag path ((remove path).forest nodes)).count⟩ := rfl
    _ = ⟨(remove path).forest nodes, 0⟩ := by rw [same, none]

/-- What is written in the place of a tag that is edited. -/
def mark : TagEdit → List Char
  | remove _ => []
  | rename _ new => '#' :: (TagPath.withoutSlash new).toList

/-- What is written in the place of a leaf. -/
def writtenLeaf (edit : TagEdit) (build : Leaf → List Char) : Leaf → List Char
  | .tag raw => if TagPath.normalize raw = edit.path then edit.mark else '#' :: raw.toList
  | l => l.writtenBy build

/-- What an edit puts in the place of a leaf is written as `writtenLeaf` says. -/
theorem flatMap_writtenBy_replacement (edit : TagEdit) (build : Leaf → List Char) (l : Leaf) :
    (edit.replacement l).flatMap (Leaf.writtenBy build) = edit.writtenLeaf build l := by
  cases l with
  | tag raw =>
      have kept : (Leaf.tag raw).writtenBy build = '#' :: raw.toList := rfl
      cases edit with
      | remove path =>
          by_cases on : TagPath.normalize raw = path
          · simp [replacement, writtenLeaf, Leaf.isTagOn, TagEdit.path, on, mark]
          · simp [replacement, writtenLeaf, Leaf.isTagOn, TagEdit.path, on, kept]
      | rename old new =>
          have put : (Leaf.tag (TagPath.withoutSlash new)).writtenBy build =
              '#' :: (TagPath.withoutSlash new).toList := rfl
          by_cases on : TagPath.normalize raw = old
          · simp [replacement, writtenLeaf, Leaf.isTagOn, TagEdit.path, on, mark, put]
          · simp [replacement, writtenLeaf, Leaf.isTagOn, TagEdit.path, on, kept]
  | _ => cases edit <;> simp [replacement, writtenLeaf, Leaf.isTagOn]

/-- An edited forest is written as before, but for the tags on the path. -/
theorem toMarkdownBy_forest (edit : TagEdit) (build : Leaf → List Char) (nodes : Forest) :
    ((edit.forest nodes).toMarkdownBy build).toList =
      nodes.leaves.flatMap (edit.writtenLeaf build) := by
  rw [Forest.toMarkdownBy, String.toList_ofList, forest_eq, Forest.leaves_replaceLeaves,
    List.flatMap_assoc]
  congr 1
  funext l
  exact flatMap_writtenBy_replacement edit build l

end TagEdit

/-! ### The text of a memo after an edit -/

/-- A request that edits the tags of one memo is one of the requests that write at most once. -/
theorem Request.Edits.editsOneMemo {request : Request} {id : MemoId} {edit : TagEdit}
    (edits : request.Edits id edit) : request.editsOneMemo = true := by
  cases edits <;> rfl

/-- What an edit that changes a memo leaves behind. -/
theorem find?_after_edit {call : Call} {memos : Collection} {id : MemoId} {edit : TagEdit}
    {m : Memo} (edits : call.request.Edits id edit) (found : memos.find? id = some m)
    (succeeded : (call.outcome memos).1 = .ok (.retagged ⟨id, true⟩)) :
    ∃ reads nodes text, call.circumstances.parser reads m.content = .ok nodes ∧
      call.circumstances.writer (edit.forest nodes) = some text ∧
      (call.after memos).find? id =
        some (call.circumstances.revised text (edit.forest nodes).payload m) := by
  obtain ⟨next, saved, _, id', edit', m', same, edits', found', -, retags⟩ :=
    (Call.outcome_of_commits (commits_edit edits.editsOneMemo)).2 _ succeeded
  obtain ⟨rfl, rfl⟩ := edits.unique edits'
  obtain rfl : m = m' := Option.some.inj (found.symm.trans found')
  obtain ⟨-, named⟩ := Collection.find?_eq_some found
  cases same
  cases retags with
  | @edited reads nodes text carried read written =>
      refine ⟨reads, nodes, text, read, written, ?_⟩
      have kept : ∀ x, (call.circumstances.revised text (edit'.forest nodes).payload x).id = x.id :=
        fun _ => rfl
      rw [Call.after, saved, Option.toList_some, List.headD_cons, named, find?_modify_self kept,
        found, Option.map_some]

/-- **An edit is exact.** The text of a memo is the texts of its leaves in order. An edit that
changes the memo replaces the texts of the tags on its path, by the marker of the new path or by
nothing, and keeps all other texts. The number reported is the number of these tags, every container
stays, and a second removal finds nothing. How leaves without a text are written does not matter. -/
theorem edited_text_exact {call : Call} {memos : Collection} {id : MemoId} {edit : TagEdit}
    {m : Memo} {nodes : Forest} {parse : String → Except ParseError Forest}
    {build : Leaf → List Char} (follows : call.circumstances.parser.Follows parse)
    (writes : ∀ nodes text, call.circumstances.writer nodes = some text →
      text = nodes.toMarkdownBy build)
    (edits : call.request.Edits id edit) (found : memos.find? id = some m)
    (read : parse m.content = .ok nodes) (lossless : nodes.toMarkdownBy build = m.content)
    (succeeded : (call.outcome memos).1 = .ok (.retagged ⟨id, true⟩)) :
    (∃ text, (call.after memos).find? id =
        some (call.circumstances.revised text (edit.forest nodes).payload m) ∧
      m.content.toList = nodes.leaves.flatMap (Leaf.writtenBy build) ∧
      text.toList = nodes.leaves.flatMap (edit.writtenLeaf build)) ∧
    (∀ (edit : TagEdit) (nodes : Forest),
      edit.count nodes = nodes.leaves.countP (Leaf.isTagOn edit.path) ∧
      (edit.forest nodes).skeleton = nodes.skeleton) ∧
    ∀ path nodes, Forest.removeTag path ((TagEdit.remove path).forest nodes) =
      ⟨(TagEdit.remove path).forest nodes, 0⟩ := by
  refine ⟨?_, fun edit nodes => ⟨edit.count_eq nodes, edit.skeleton_forest nodes⟩,
    TagEdit.removeTag_forest_remove⟩
  obtain ⟨reads, nodes', text, accepted, written, after⟩ := find?_after_edit edits found succeeded
  obtain rfl : nodes = nodes' :=
    Except.ok.inj (read.symm.trans (follows reads m.content nodes' accepted))
  refine ⟨text, after, ?_, ?_⟩
  · rw [← lossless, Forest.toMarkdownBy, String.toList_ofList]
  · rw [writes _ text written, TagEdit.toMarkdownBy_forest]

/-- A renaming of two tags in different places, in two spellings. The code span is no tag. -/
theorem edited_text_exact_nested :
    let m := soleMemo "> - x #a/ **#a**\n\n`#a` #b" ["/a", "/b"]
    let call := plainCall (.renameMemoTag "memos/00000000000000000000000000000001" "a" "c/d")
    ∃ m', (call.after [m]).find? (.ofNat 1) = some m' ∧
      m'.content = "> - x #c/d **#c/d**\n\n`#a` #b" := by
  intro m call
  have follows : call.circumstances.parser.Follows Forest.ofMarkdown := Parser.markdown_follows
  have writes : ∀ nodes text, call.circumstances.writer nodes = some text →
      text = nodes.toMarkdown := by
    rintro nodes text ⟨⟩
    rfl
  have edits : call.request.Edits (.ofNat 1) (.rename "/a" "/c/d") :=
    .rename (by decide +kernel) (by decide +kernel) (by decide +kernel)
  have found : Collection.find? [m] (.ofNat 1) = some m := by decide +kernel
  have succeeded : (call.outcome [m]).1 = .ok (.retagged ⟨.ofNat 1, true⟩) := by decide +kernel
  have leaves : (Forest.ofMarkdown m.content).toOption.any (fun nodes =>
      nodes.toMarkdown = m.content ∧
        nodes.leaves.flatMap ((TagEdit.rename "/a" "/c/d").writtenLeaf Leaf.built) =
          "> - x #c/d **#c/d**\n\n`#a` #b".toList) = true := by decide +kernel
  cases read : Forest.ofMarkdown m.content with
  | error _ =>
      rw [read] at leaves
      cases leaves
  | ok nodes =>
      rw [read, Except.toOption, Option.any_some, decide_eq_true_iff] at leaves
      obtain ⟨lossless, written⟩ := leaves
      obtain ⟨⟨text, after, -, new⟩, -⟩ :=
        edited_text_exact follows writes edits found read lossless succeeded
      exact ⟨_, after, String.toList_inj.mp (new.trans written)⟩

end TaggedMemos
