import TaggedMemos.Tag.Index

/-!
# The Tag Hierarchy

Links join paths of an index only: the parent of an entry is the path without its last segment
when that path is an entry, and no ancestors are made up. The total of an entry is its own
count and the counts of everything its child links lead to, each path counted once. The search
for a total therefore ends on any links, cycles included.
-/

namespace TaggedMemos.TagIndex

/-! ### Links -/

/-- The entries one level below a path. They are looked for from the place on that the path with a
slash after it has in the order, up to the first entry that does not begin so. -/
def childrenOf (index : TagIndex) (path : String) : List String :=
  let start := path ++ "/"
  let onward := index.keys.dropWhile (· < start)
  let below := onward.takeWhile fun other => start.toList.isPrefixOf other.toList
  below.filter (TagPath.isDirectChild path)

/-- The parent of a path, when it is an entry. -/
def parentOf (index : TagIndex) (path : String) : Option String :=
  (TagPath.parent? path).filter fun parent => (index.find? parent).isSome

/-- The index with the links of every entry set. -/
def withLinks (index : TagIndex) : TagIndex :=
  index.map fun (path, node) =>
    (path, { node with childPaths := index.childrenOf path, parentPath := index.parentOf path })

/-! ### Totals -/

/-- The entries a search has not visited yet. -/
def unvisited (index : TagIndex) (visited : List String) : TagIndex :=
  index.filter fun entry => !visited.contains entry.1

/-- Visiting an entry leaves fewer entries to visit. -/
theorem length_unvisited_lt {index : TagIndex} {visited : List String} {path : String}
    {node : TagNode} (new : visited.contains path = false)
    (found : index.find? path = some node) :
    (index.unvisited (path :: visited)).length < (index.unvisited visited).length := by
  induction index with
  | nil => simp [find?] at found
  | cons entry rest ih =>
    obtain ⟨key, other⟩ := entry
    have shrinks : ∀ l : TagIndex,
        (unvisited l (path :: visited)).length ≤ (unvisited l visited).length := by
      intro l
      induction l with
      | nil => simp [unvisited]
      | cons e l ihl =>
        simp only [unvisited, List.filter_cons, List.contains_cons] at ihl ⊢
        by_cases h : visited.contains e.1 <;> by_cases h' : e.1 == path <;> simp_all
        omega
    by_cases h : key = path
    · have tail := shrinks rest
      subst h
      simp only [unvisited, List.filter_cons, List.contains_cons, BEq.rfl, Bool.true_or,
        Bool.not_true, new, Bool.not_false, if_true] at tail ⊢
      simp only [Bool.false_eq_true, if_false, List.length_cons]
      omega
    · simp only [find?, h, if_false] at found
      have tail := ih found
      simp only [unvisited, List.filter_cons, List.contains_cons] at tail ⊢
      by_cases hv : visited.contains key <;> simp_all

/-- Adds the counts of every entry that the paths in `pending` lead to, each entry once. -/
def countFrom (index : TagIndex) (visited pending : List String) : Nat :=
  match pending with
  | [] => 0
  | path :: rest =>
    if _new : visited.contains path = true then countFrom index visited rest
    else
      match _found : index.find? path with
      | none => countFrom index visited rest
      | some node =>
        node.directCount + countFrom index (path :: visited) (node.childPaths ++ rest)
termination_by ((index.unvisited visited).length, pending.length)
decreasing_by
  · exact Prod.Lex.right _ (by simp)
  · exact Prod.Lex.right _ (by simp)
  · exact Prod.Lex.left _ _ (length_unvisited_lt (by simpa using _new) _found)

/-- The counts of everything a path leads to. A path that is no entry counts nothing. -/
def totalCount (index : TagIndex) (path : String) : Nat :=
  index.countFrom [] [path]

/-- The index with the links and the total of every entry set. -/
def withHierarchy (index : TagIndex) : TagIndex :=
  let linked := index.withLinks
  linked.map fun (path, node) => (path, { node with totalCount := linked.totalCount path })

end TaggedMemos.TagIndex
