import TaggedMemos.Forest.Payload
import TaggedMemos.Proofs.PathGrammar
import TaggedMemos.Proofs.Payload
import TaggedMemos.Proofs.Sketch

/-!
# Where Tags Come From

The tags of a forest are found in the runs of its sketch, and the runs are parts of the text. This
holds for every stream of events, faithful to the text or not. So each tag of a forest stands in the
text, after a `#`, and consists of tag characters.

## Main results

* `exists_run_of_mem_leaves`: a tag of a forest is found in a part of the text.
* `tag_of_mem_leaves`: a tag of a forest stands in the text.
* `chars_of_mem_tags`: the tags of a payload that fits a text consist of tag characters.
-/

namespace TaggedMemos

open Text

/-- A slice that is not empty is the middle of a division into three, and ends where the span does.
-/
theorem Text.exists_of_slice_ne_nil {cs : List Char} {span : Span} (filled : slice cs span ≠ []) :
    ∃ x y, cs = x ++ (slice cs span ++ y) ∧ byteLength (x ++ slice cs span) = span.stop := by
  cases cut : cutAt? span.start cs with
  | none => simp [slice, cut] at filled
  | some halves =>
      obtain ⟨x, rest⟩ := halves
      cases cut' : cutAt? (span.stop - span.start) rest with
      | none => simp [slice, cut, cut'] at filled
      | some halves =>
          obtain ⟨part, y⟩ := halves
          by_cases order : span.start ≤ span.stop
          · obtain ⟨rfl, size⟩ := cutAt?_eq_some.mp cut
            obtain ⟨rfl, size'⟩ := cutAt?_eq_some.mp cut'
            have same : slice (x ++ (part ++ y)) span = part := by simp [slice, order, cut, cut']
            rw [same]
            exact ⟨x, y, rfl, by rw [byteLength_append]; omega⟩
          · simp [slice, order] at filled

/-- A slice is a part of the text. -/
theorem Text.infix_slice (cs : List Char) (span : Span) : slice cs span <:+: cs := by
  by_cases filled : slice cs span = []
  · rw [filled]
    exact List.nil_infix
  · obtain ⟨x, y, divided, -⟩ := exists_of_slice_ne_nil filled
    exact ⟨x, y, by rw [List.append_assoc, ← divided]⟩

/-- Every tag of a forest is found in a run that is a part of the text. -/
theorem exists_run_of_mem_leaves {source : String} {events : List Located} {nodes : Forest}
    {raw : String} (read : Forest.ofEvents source events = .ok nodes)
    (member : .tag raw ∈ nodes.leaves) :
    ∃ escaped span, .tag raw ∈ scanRun escaped (slice source.toList span) := by
  obtain ⟨sketch, rfl, placed⟩ := exists_sketch read
  obtain ⟨run, member, found⟩ := sketch.exists_run_of_mem_leaves member
  obtain ⟨span, rfl⟩ := placed run member
  exact ⟨_, span, found⟩

/-- **A tag of a forest stands in the text**, after a `#`, and consists of tag characters. -/
theorem tag_of_mem_leaves {source : String} {events : List Located} {nodes : Forest} {raw : String}
    (read : Forest.ofEvents source events = .ok nodes) (member : .tag raw ∈ nodes.leaves) :
    '#' :: raw.toList <:+: source.toList ∧ raw.toList ≠ [] ∧
      ∀ c ∈ raw.toList, isTagChar c = true := by
  obtain ⟨escaped, span, member⟩ := exists_run_of_mem_leaves read member
  obtain ⟨before, after, whole, valid, -⟩ := tag_of_mem_scanRun member
  have inside : '#' :: raw.toList <:+: slice source.toList span :=
    ⟨before, after, by rw [whole]; simp⟩
  exact ⟨inside.trans (infix_slice _ span), valid⟩

/-- The tags of a text consist of tag characters. -/
theorem chars_of_mem_tags {source path : String} {events : List Located} {nodes : Forest}
    (read : Forest.ofEvents source events = .ok nodes)
    (carried : nodes.payload.hasTag path = true) :
    ∀ c ∈ path.toList, isTagChar c = true := by
  obtain ⟨raw, member, rfl⟩ := Forest.hasTag_payload.mp carried
  obtain ⟨-, -, chars⟩ := tag_of_mem_leaves read member
  intro c inside
  rcases TagPath.of_mem_normalize inside with rfl | inside
  · decide
  · exact chars c inside

end TaggedMemos
