import TaggedMemos.Memo.Query
import TaggedMemos.Proofs.TagText
import TaggedMemos.Service.Action

/-!
# Tags Typed as Paths

A tag in a text is any mix of tag characters, slashes in all places included, and is known by its
canonical path. A caller names a tag by typing a path, which may be refused for five reasons. None
of them applies to the path of a tag, since no tag character is blank or a number sign, and a
canonical path has no gaps. The only exception is the path of a tag that consists of slashes.

## Main results

* `plain_of_isTagChar`: no tag character makes a path be refused.
* `tags_can_be_typed`: the path of a tag can be typed, and names that tag.
-/

namespace TaggedMemos

open Text

/-! ### The tags of a forest -/

/-- A tag character is neither blank nor a number sign. -/
theorem plain_of_isTagChar {c : Char} (char : isTagChar c = true) :
    isBlank c = false ∧ c ≠ '#' := by
  refine ⟨Bool.eq_false_iff.mpr fun blank => ?_, ?_⟩
  · rw [isTagChar_of_isBlank blank] at char
    cases char
  · rintro rfl
    exact absurd char (by decide)

/-- **The path of a tag can be typed**, whatever events the tag was read from. It is validated as it
is, so a request that takes it for an argument is about this path, and selects memos with the
payload that the tag belongs to. Only the path of a tag that consists of slashes is refused. -/
theorem tags_can_be_typed {source path : String} {events : List Located} {nodes : Forest}
    (read : Forest.ofEvents source events = .ok nodes) (found : path ∈ nodes.tags) :
    (path = "/" ∧ TagPath.validate path = .error .noSegments) ∨
      (TagPath.validate path = .ok path ∧
        (∀ field, Action.requirePath path field = return path) ∧
        (TagFilter.carries path).admits nodes.payload = true) := by
  have carried : nodes.payload.hasTag path = true := by
    rwa [Payload.hasTag, List.contains_iff_mem, Forest.tags_payload_eq]
  obtain ⟨raw, member, rfl⟩ := Forest.hasTag_payload.mp carried
  obtain ⟨-, -, chars⟩ := tag_of_mem_leaves read member
  rcases TagPath.normalize_cases raw with root | canonical
  · rw [root]
    exact .inl ⟨rfl, rfl⟩
  · have plain : ∀ c ∈ (TagPath.normalize raw).toList, isBlank c = false ∧ c ≠ '#' := by
      intro c inside
      rcases TagPath.of_mem_normalize inside with rfl | inside
      · decide
      · exact plain_of_isTagChar (chars c inside)
    have accepted := TagPath.validate_eq_self_iff.mpr ⟨canonical, plain⟩
    refine .inr ⟨accepted, fun field => ?_, carried⟩
    rw [Action.requirePath, accepted]

/-- A tag with slashes in all places, and one with nothing else. -/
theorem tags_can_be_typed_slashes :
    ∃ nodes, Forest.ofEvents "#a//b/ #/" [⟨.text "#a//b/ ", ⟨0, 7⟩⟩, ⟨.text "#/", ⟨7, 9⟩⟩] =
        .ok nodes ∧
      nodes.tags = ["/a/b", "/"] ∧ TagPath.validate "/a/b" = .ok "/a/b" ∧
      TagPath.validate "/" = .error .noSegments := by
  let nodes : Forest := [.leaf (.tag "a//b/"), .leaf (.text " "), .leaf (.tag "/")]
  have read : Forest.ofEvents "#a//b/ #/"
      [⟨.text "#a//b/ ", ⟨0, 7⟩⟩, ⟨.text "#/", ⟨7, 9⟩⟩] = .ok nodes := rfl
  have tags : nodes.tags = ["/a/b", "/"] := by decide +kernel
  have first : "/a/b" ∈ nodes.tags := by simp [tags]
  have second : "/" ∈ nodes.tags := by simp [tags]
  refine ⟨nodes, read, tags, ?_, ?_⟩
  · rcases tags_can_be_typed read first with ⟨root, -⟩ | ⟨accepted, -⟩
    · exact absurd root (by decide)
    · exact accepted
  · rcases tags_can_be_typed read second with ⟨-, refused⟩ | ⟨accepted, -⟩
    · exact refused
    · cases accepted

end TaggedMemos
