import TaggedMemos.Proofs.Leftovers
import TaggedMemos.Proofs.Retag

/-!
# Edited Memos in Sync

A request that edits the tags of one memo stores the payload of the edited forest, together with the
text written from it, and nobody reads that text. Whether it is read with the payload depends on the
runs. An edit takes the tags of a run for what the scan has made of them, and writes a run that is
scanned anew when the text is read, while nothing but the runs is another in the text. So where the
markdown around the runs is the same, the new text gives what is read off the sketch of the old one
with its runs edited.

A renamed run gives the renamed tags if the new path consists of tag characters, and a path with
another character is never read back. A removal lets tags move up (`Leftovers`). The payload stored
fits if and only if these make no difference to the list of tags, by being on it in the place where
they come first. That is so in particular where nothing moves up. Where a tag that moves up is a new
one, or the one that was removed, the memo is out of sync (`removal_joins_leftovers`).

## Main results

* `Sketch.toMarkdownBy_edit`: the text of an edited forest is that of the sketch with its runs
  edited.
* `Sketch.read_rename`, `Sketch.payload_remove`: what the edited runs give.
* `inSync_after_edit_iff`: when a memo is in sync after an edit.
-/

namespace TaggedMemos

open Text

/-! ### Edited runs -/

/-- What a scan finds in a run is written as the run. -/
theorem Run.flatMap_writtenBy_scan (run : Run) (build : Leaf → List Char) :
    run.scan.flatMap (Leaf.writtenBy build) = run.text :=
  flatMap_writtenBy_scanRun build run.escaped run.text

/-- A run after an edit: its leaves are edited, and written in order. -/
def TagEdit.run (edit : TagEdit) (run : Run) : Run :=
  { run with text := (run.scan.flatMap edit.replacement).flatMap Leaf.written }

/-- An edit keeps every leaf that is no tag. -/
theorem TagEdit.replacement_of_untagged (edit : TagEdit) {l : Leaf}
    (untagged : ∀ raw, l ≠ .tag raw) : edit.replacement l = [l] := by
  cases l with
  | tag raw => exact absurd rfl (untagged raw)
  | _ => cases edit <;> rfl

/-- It puts nothing but tags in the place of a tag. -/
theorem TagEdit.exists_of_mem_replacement {edit : TagEdit} {raw : String} {l : Leaf}
    (member : l ∈ edit.replacement (.tag raw)) : ∃ raw', l = .tag raw' := by
  cases edit with
  | remove path =>
      by_cases on : (Leaf.tag raw).isTagOn path = true
      · simp [replacement, on] at member
      · exact ⟨raw, by simpa [replacement, on] using member⟩
  | rename old new =>
      by_cases on : (Leaf.tag raw).isTagOn old = true
      · exact ⟨_, by simpa [replacement, on] using member⟩
      · exact ⟨raw, by simpa [replacement, on] using member⟩

/-- The edited leaves of a run are written as the edited run. -/
theorem TagEdit.flatMap_writtenBy_edited (edit : TagEdit) (run : Run) (build : Leaf → List Char) :
    (run.scan.flatMap edit.replacement).flatMap (Leaf.writtenBy build) = (edit.run run).text := by
  refine List.flatMap_congr fun l member => ?_
  obtain ⟨l', found, member⟩ := List.mem_flatMap.mp member
  by_cases tagged : ∃ raw, l' = .tag raw
  · obtain ⟨raw, rfl⟩ := tagged
    obtain ⟨raw', rfl⟩ := exists_of_mem_replacement member
    rfl
  · rw [edit.replacement_of_untagged fun raw same => tagged ⟨raw, same⟩,
      List.mem_singleton] at member
    exact member ▸ writtenBy_of_mem_scanRun found build

/-- A removal leaves out the tags on its path. -/
theorem TagEdit.flatMap_remove (path : String) (leaves : List Leaf) :
    leaves.flatMap (TagEdit.remove path).replacement =
      leaves.filter fun l => !l.isTagOn path := by
  induction leaves with
  | nil => rfl
  | cons l leaves ih =>
      rw [List.flatMap_cons, ih, List.filter_cons]
      cases on : l.isTagOn path <;> simp [replacement, on]

/-- A renaming gives tags another name. -/
theorem TagEdit.flatMap_rename (old new : String) (leaves : List Leaf) :
    leaves.flatMap (TagEdit.rename old new).replacement =
      leaves.map (Leaf.mapName (renamedName old new)) := by
  induction leaves with
  | nil => rfl
  | cons l leaves ih =>
      rw [List.flatMap_cons, ih, List.map_cons]
      cases l with
      | tag raw =>
          by_cases on : TagPath.normalize raw = old
          · simp [replacement, Leaf.isTagOn, Leaf.mapName, renamedName, on]
          · simp [replacement, Leaf.isTagOn, Leaf.mapName, renamedName, on]
      | _ => rfl

namespace Sketch

variable (sketch : Sketch) {path old new : String}

/-- A sketch with its runs edited. -/
def edit (edit : TagEdit) : Sketch → Sketch
  | nil => nil
  | prose run rest => prose (edit.run run) (rest.edit edit)
  | leaf l untagged rest => leaf l untagged (rest.edit edit)
  | container kind children rest => container kind (children.edit edit) (rest.edit edit)

/-- The runs of an edited sketch are those of the sketch, edited. -/
theorem runs_edit (edit : TagEdit) : (sketch.edit edit).runs = sketch.runs.map edit.run := by
  induction sketch with
  | nil => rfl
  | prose run rest ih => simp [Sketch.edit, runs, ih]
  | leaf l untagged rest ih => simp [Sketch.edit, runs, ih]
  | container kind children rest inner ih => simp [Sketch.edit, runs, inner, ih]

/-- **The text of an edited forest** is that of the sketch with its runs edited. -/
theorem toMarkdownBy_edit (edit : TagEdit) (build : Leaf → List Char) :
    (edit.forest sketch.read).toMarkdownBy build = (sketch.edit edit).read.toMarkdownBy build := by
  rw [TagEdit.forest_eq, Forest.toMarkdownBy, Forest.toMarkdownBy, Forest.leaves_replaceLeaves]
  congr 1
  induction sketch with
  | nil => rfl
  | prose run rest ih =>
      simp [Sketch.edit, ih, edit.flatMap_writtenBy_edited, Run.flatMap_writtenBy_scan]
  | leaf l untagged rest ih => simp [Sketch.edit, ih, edit.replacement_of_untagged untagged]
  | container kind children rest inner ih => simp [Sketch.edit, inner, ih]

/-! ### Renamed runs -/

/-- **A renamed run gives the renamed tags**, so the edited sketch is read as the edited forest. -/
theorem read_rename (canonical : TagPath.IsCanonical new)
    (chars : ∀ c ∈ new.toList, isTagChar c = true) (old : String) :
    (sketch.edit (.rename old new)).read = (TagEdit.rename old new).forest sketch.read := by
  rw [TagEdit.forest_eq]
  induction sketch with
  | nil => rfl
  | prose run rest ih =>
      have again : ((TagEdit.rename old new).run run).scan =
          run.scan.flatMap (TagEdit.rename old new).replacement := by
        rw [TagEdit.flatMap_rename, TagEdit.run, Run.scan, TagEdit.flatMap_rename]
        exact scanFrom_rewritten (isName_renamedName canonical chars) _ run.text rfl []
      rw [Sketch.edit, read, again, ih, read, Forest.replaceLeaves_append,
        Forest.replaceLeaves_map_leaf]
  | leaf l untagged rest ih =>
      rw [Sketch.edit, read, ih, read, Forest.replaceLeaves, Node.replaceLeaves,
        TagEdit.replacement_of_untagged _ untagged]
      rfl
  | container kind children rest inner ih =>
      rw [Sketch.edit, read, inner, ih, read, Forest.replaceLeaves, Node.replaceLeaves]
      rfl

/-! ### Runs after a removal -/

/-- The tags and embeds that the runs give after a removal. -/
def foundLeft (path : String) : List Leaf :=
  sketch.runs.flatMap fun run => TaggedMemos.foundLeft path run.scan

/-- The tags that move up in the runs when a tag is removed. -/
def movedUp (path : String) : List Leaf :=
  sketch.runs.flatMap fun run => TaggedMemos.movedUp path run.scan

/-- The tags of a forest are those of its runs. -/
theorem tagPaths_read :
    sketch.read.tagPaths = sketch.runs.flatMap fun run => run.scan.filterMap Leaf.tagPath? := by
  rw [Forest.tagPaths_eq]
  induction sketch with
  | nil => rfl
  | prose run rest ih => simp [runs, ih]
  | leaf l untagged rest ih =>
      have none : l.tagPath? = none := by
        cases l with
        | tag raw => exact absurd rfl (untagged raw)
        | _ => rfl
      simp [runs, ih, none]
  | container kind children rest inner ih => simp [runs, inner, ih]

end Sketch

/-- What a scan finds after a removal, but for text. -/
theorem TagEdit.scan_remove {run : Run} {path : String} (free : Unbracketed path run.text) :
    ((TagEdit.remove path).run run).scan.filter (fun l => !l.isText) =
      TaggedMemos.foundLeft path run.scan := by
  rw [Run.scan, TagEdit.run, TagEdit.flatMap_remove]
  exact scanRun_thinned free run.escaped

/-- What is read off leaves other than text can be read off without text. -/
theorem filterMap_filter_isText {f : Leaf → Option String} (blind : ∀ t, f (.text t) = none)
    (leaves : List Leaf) : (leaves.filter fun l => !l.isText).filterMap f = leaves.filterMap f := by
  rw [List.filterMap_filter]
  refine List.filterMap_congr fun l _ => ?_
  cases l with
  | text t => simp [Leaf.isText, blind]
  | _ => rfl

/-- The facts that a payload tells of a run are the resources that it embeds. -/
theorem property_payload_scan (run : Run) :
    (Forest.payload (run.scan.map Node.leaf)).property =
      { references := run.scan.filterMap Leaf.resource? } := by
  have none : ∀ p : Node → Bool, (∀ t, p (.leaf (.text t)) = false) →
      (∀ raw, p (.leaf (.tag raw)) = false) → (∀ resource, p (.leaf (.embed resource)) = false) →
      (run.scan.map Node.leaf).any p = false := by
    intro p text tag embed
    rw [List.any_eq_false]
    intro node member
    obtain ⟨l, found, rfl⟩ := List.mem_map.mp member
    rcases mem_scanRun found with ⟨t, rfl⟩ | ⟨_, _, _, -, here⟩
    · simp [text]
    · rcases tag_or_embed_of_leafAt? here with ⟨raw, rfl⟩ | ⟨resource, rfl⟩
      · simp [tag]
      · simp [embed]
  rw [Forest.property_payload_eq, Forest.leaves_map_leaf, Forest.preorder_map_leaf]
  rw [none Node.isLink, none Node.isTask, none Node.isCodeBlock, none Node.isOpenTask]
  all_goals exact fun _ => rfl

namespace Sketch

variable (sketch : Sketch) {path : String}

/-- A removal keeps the facts. -/
theorem property_payload_remove (free : ∀ run ∈ sketch.runs, Unbracketed path run.text) :
    (sketch.edit (.remove path)).read.payload.property = sketch.read.payload.property := by
  induction sketch with
  | nil => rfl
  | prose run rest ih =>
      obtain ⟨here, later⟩ := List.forall_mem_cons.mp free
      have resources : ((TagEdit.remove path).run run).scan.filterMap Leaf.resource? =
          run.scan.filterMap Leaf.resource? := by
        rw [← filterMap_filter_isText fun _ => rfl, TagEdit.scan_remove here, resources_foundLeft]
      rw [Sketch.edit, read, read, Forest.payload_append, Forest.payload_append, Payload.join,
        Payload.join, property_payload_scan, property_payload_scan, resources, ih later]
  | leaf l untagged rest ih =>
      have first (nodes : Forest) : Node.leaf l :: nodes = [.leaf l] ++ nodes := rfl
      rw [Sketch.edit, read, read, first, first rest.read, Forest.payload_append,
        Forest.payload_append, Payload.join, Payload.join, ih free]
  | container kind children rest inner ih =>
      obtain ⟨inside, later⟩ := List.forall_mem_append.mp free
      have first (nodes : Forest) : ∀ children : Forest, Node.container kind children :: nodes =
          [.container kind children] ++ nodes := fun _ => rfl
      rw [Sketch.edit, read, read, first, first rest.read, Forest.payload_append,
        Forest.payload_append, Payload.join, Payload.join, ih later, Forest.payload_container,
        Forest.payload_container]
      cases kind <;> simp [inner inside]

/-- **The payload after a removal**: the facts stay, and the tags are those found in what is left.
-/
theorem payload_remove (free : ∀ run ∈ sketch.runs, Unbracketed path run.text) :
    (sketch.edit (.remove path)).read.payload =
      { sketch.read.payload with
        tags := ((sketch.foundLeft path).filterMap Leaf.tagPath?).eraseDups } := by
  refine Payload.eq_of ?_ (sketch.property_payload_remove free)
  rw [Forest.tags_payload, firsts_eq_eraseDups, tagPaths_read, runs_edit, List.flatMap_map,
    foundLeft, List.filterMap_flatMap]
  congr 1
  refine List.flatMap_congr fun run member => ?_
  rw [← filterMap_filter_isText fun _ => rfl, TagEdit.scan_remove (free run member)]

/-- Where nothing moves up, the tags found are the others. -/
theorem tagPaths_foundLeft (none : sketch.movedUp path = []) :
    (sketch.foundLeft path).filterMap Leaf.tagPath? =
      sketch.read.tagPaths.filter (· != path) := by
  rw [tagPaths_read, foundLeft, List.filterMap_flatMap, List.filter_flatMap]
  refine List.flatMap_congr fun run member => ?_
  exact TaggedMemos.tagPaths_foundLeft (List.flatMap_eq_nil_iff.mp none run member)

/-- What moves up is found. -/
theorem movedUp_subset (path : String) : sketch.movedUp path ⊆ sketch.foundLeft path := by
  intro l moved
  obtain ⟨run, member, moved⟩ := List.mem_flatMap.mp moved
  exact List.mem_flatMap.mpr ⟨run, member, TaggedMemos.movedUp_subset path run.scan moved⟩

end Sketch

/-! ### Memos after an edit -/

/-- What an edit stores is what its runs give: a new path consists of tag characters, and what moves
up makes no difference to the list of tags. -/
def TagEdit.IsStable (edit : TagEdit) (sketch : Sketch) (tags : List String) : Prop :=
  match edit with
  | remove path =>
    ((sketch.foundLeft path).filterMap Leaf.tagPath?).eraseDups = tags.filter (· != path)
  | rename _ new => ∀ c ∈ new.toList, isTagChar c = true

/-- Where nothing moves up, a removal stores what its runs give. -/
theorem TagEdit.isStable_of_movedUp_eq_nil {sketch : Sketch} {path : String}
    (none : sketch.movedUp path = []) :
    (TagEdit.remove path).IsStable sketch sketch.read.payload.tags := by
  rw [IsStable, sketch.tagPaths_foundLeft none, Forest.tags_payload, ← firsts_eq_eraseDups,
    firsts_filter]

/-- Where a removal stores what its runs give, all that moves up was among the other tags. -/
theorem TagEdit.IsStable.mem_of_mem_movedUp {sketch : Sketch} {path moved : String}
    {tags : List String} (stable : (TagEdit.remove path).IsStable sketch tags)
    (member : moved ∈ (sketch.movedUp path).filterMap Leaf.tagPath?) :
    moved ∈ tags ∧ moved ≠ path := by
  have found := List.filterMap_subset Leaf.tagPath? (sketch.movedUp_subset path) member
  rw [IsStable] at stable
  rw [← List.mem_eraseDups, stable, List.mem_filter] at found
  simpa using found

/-- The payload of the edited runs is the one that is stored, if the edit is stable. -/
theorem Sketch.payload_edit {sketch : Sketch} {edit : TagEdit} (canonical : edit.IsCanonical)
    (free : ∀ path, edit = .remove path → ∀ run ∈ sketch.runs, Unbracketed path run.text)
    (stable : edit.IsStable sketch sketch.read.payload.tags) :
    (sketch.edit edit).read.payload = edit.payload sketch.read.payload := by
  cases edit with
  | remove path =>
      rw [TagEdit.IsStable] at stable
      rw [sketch.payload_remove (free path rfl), stable]
      rfl
  | rename old new =>
      rw [sketch.read_rename canonical stable, TagEdit.payload_forest canonical]

/-- A removal is stable if the payload of the edited runs is the one that is stored. -/
theorem TagEdit.isStable_of_payload {sketch : Sketch} {path : String}
    (free : ∀ run ∈ sketch.runs, Unbracketed path run.text)
    (same : (TagEdit.remove path).payload sketch.read.payload =
      (sketch.edit (.remove path)).read.payload) :
    (TagEdit.remove path).IsStable sketch sketch.read.payload.tags := by
  rw [sketch.payload_remove free] at same
  exact (congrArg Payload.tags same).symm

/-- A text that fits a renamed payload has the new path for a tag, which consists of tag characters.
-/
theorem TagEdit.chars_of_fits {events : String → List Located} {text old new : String}
    {payload : Payload} (carried : payload.hasTag old = true)
    (fits : Fits (fun text => Forest.ofEvents text (events text)) text
      ((TagEdit.rename old new).payload payload)) : ∀ c ∈ new.toList, isTagChar c = true := by
  obtain ⟨nodes, read, same⟩ := fits_iff.mp fits
  refine chars_of_mem_tags read ?_
  rw [← same, Payload.hasTag, List.contains_iff_mem]
  exact mem_tags_rename (List.contains_iff_mem.mp carried)

/-- A text that is read with one payload fits no other. -/
theorem Fits.iff_eq {parse : String → Except ParseError Forest} {text : String}
    {payload payload' : Payload} (fits : Fits parse text payload) :
    Fits parse text payload' ↔ payload' = payload := by
  rw [Fits] at fits ⊢
  rw [fits, Option.some.injEq, eq_comm]

/-- A text that is read with what the edited runs give fits the edited payload if and only if the
edit is stable. -/
theorem TagEdit.fits_payload_iff {events : String → List Located} {text : String} {sketch : Sketch}
    {edit : TagEdit} (canonical : edit.IsCanonical)
    (carried : sketch.read.payload.hasTag edit.path = true)
    (free : ∀ path, edit = .remove path → ∀ run ∈ sketch.runs, Unbracketed path run.text)
    (again : Fits (fun text => Forest.ofEvents text (events text)) text
      (sketch.edit edit).read.payload) :
    Fits (fun text => Forest.ofEvents text (events text)) text
        (edit.payload sketch.read.payload) ↔
      edit.IsStable sketch sketch.read.payload.tags := by
  constructor
  · intro fits
    cases edit with
    | remove path => exact isStable_of_payload (free path rfl) (again.iff_eq.mp fits)
    | rename old new => exact chars_of_fits carried fits
  · intro stable
    rw [again.iff_eq, Sketch.payload_edit canonical free stable]

/-- **When a memo is in sync after an edit.** An edit that succeeds leaves a memo as it is that does
not carry the tag. Every other memo gets the text of its forest with the runs edited, and its tags
edited in the payload, and is in sync only if all characters of a new path are tag characters.

The forest was read off the runs of the text. Where the new text is read with what the edited runs
give, the memo is in sync exactly if the edit is stable: a new path consists of tag characters, or
the tags found after a removal, among them those that move up behind the tag removed, are the
others, in their order. So a removal is fine where nothing moves up, and it is not where a tag moves
up that is new, or the one that was removed. A removed tag must not stand between `![` and `[`,
where an embed may move up. -/
theorem inSync_after_edit_iff {events : String → List Located} {build : Leaf → List Char}
    {call : Call} {memos : Collection} {id : MemoId} {edit : TagEdit} {m : Memo} {answer : Answer}
    (follows : call.circumstances.parser.Follows fun text => Forest.ofEvents text (events text))
    (writes : ∀ nodes text, call.circumstances.writer nodes = some text →
      text = nodes.toMarkdownBy build)
    (edits : call.request.Edits id edit) (found : memos.find? id = some m)
    (inSync : m.InSync fun text => Forest.ofEvents text (events text))
    (succeeded : (call.outcome memos).1 = .ok answer) :
    let parse := fun text => Forest.ofEvents text (events text)
    ∃ nodes m', parse m.content = .ok nodes ∧ (call.after memos).find? id = some m' ∧
      (m.payload.hasTag edit.path = false → m' = m) ∧
      (m.payload.hasTag edit.path = true →
        m'.payload = edit.payload m.payload ∧
        (∀ old new, edit = .rename old new → m'.InSync parse →
          ∀ c ∈ new.toList, isTagChar c = true) ∧
        (∃ sketch : Sketch, sketch.read = nodes ∧
          ∀ run ∈ sketch.runs, ∃ span, run = .at m.content.toList span) ∧
        ∀ sketch : Sketch, sketch.read = nodes →
          m'.content = (sketch.edit edit).read.toMarkdownBy build ∧
          (Fits parse m'.content (sketch.edit edit).read.payload →
            (∀ path, edit = .remove path → ∀ run ∈ sketch.runs, Unbracketed path run.text) →
            (m'.InSync parse ↔ edit.IsStable sketch m.payload.tags) ∧
            ∀ path, edit = .remove path →
              (sketch.movedUp path = [] → m'.InSync parse) ∧
              (m'.InSync parse → ∀ moved ∈ (sketch.movedUp path).filterMap Leaf.tagPath?,
                moved ∈ m.payload.tags ∧ moved ≠ path))) := by
  intro parse
  obtain ⟨nodes, read, payload⟩ := fits_iff.mp inSync
  obtain ⟨next, saved, retagging, id', edit', m₁, rfl, edits', found', own, retags⟩ :=
    (Call.outcome_of_commits (commits_edit edits.editsOneMemo)).2 _ succeeded
  obtain ⟨rfl, rfl⟩ := edits'.unique edits
  obtain rfl : m = m₁ := Option.some.inj (found.symm.trans found')
  obtain ⟨-, rfl⟩ := Collection.find?_eq_some found
  cases retags with
  | spared lacks =>
      refine ⟨nodes, m, read, ?_, fun _ => rfl, fun carried => ?_⟩
      · rw [Call.after, saved]
        exact found
      · rw [lacks] at carried
        cases carried
  | edited carried =>
      obtain ⟨reads, nodes', text, accepted, written, after⟩ :=
        find?_after_edit edits found succeeded
      obtain rfl : nodes = nodes' :=
        Except.ok.inj (read.symm.trans (follows reads m.content nodes' accepted))
      have canonical := edits.isCanonical
      have stored : (edit.forest nodes).payload = edit.payload m.payload := by
        rw [payload, TagEdit.payload_forest canonical]
      refine ⟨nodes, _, read, after, fun lacks => ?_, fun _ => ⟨stored, ?_, exists_sketch read, ?_⟩⟩
      · rw [lacks] at carried
        cases carried
      · rintro old new rfl fits
        exact TagEdit.chars_of_fits carried (stored ▸ fits)
      · rintro sketch rfl
        have content : text = (sketch.edit edit).read.toMarkdownBy build := by
          rw [writes _ text written, sketch.toMarkdownBy_edit]
        refine ⟨content, fun again free => ?_⟩
        have inSync_iff :
            (call.circumstances.revised text (edit.forest sketch.read).payload m).InSync parse ↔
              edit.IsStable sketch m.payload.tags := by
          rw [payload] at carried stored ⊢
          rw [← TagEdit.fits_payload_iff canonical carried free again, ← stored]
          rfl
        refine ⟨inSync_iff, ?_⟩
        rintro path rfl
        rw [inSync_iff]
        exact ⟨fun none => payload ▸ TagEdit.isStable_of_movedUp_eq_nil none,
          fun stable moved member => stable.mem_of_mem_movedUp member⟩

/-- The sketch of a text that is one line of plain text. -/
def plainSketch (text : String) : Sketch :=
  .container .paragraph (.prose ⟨false, text.toList⟩ .nil) .nil

/-- A line of plain text is read off a paragraph with one run. -/
theorem ofEvents_plainEvents (text : String) :
    Forest.ofEvents text (plainEvents text) = .ok (plainSketch text).read := by
  by_cases empty : text.toList = []
  · obtain rfl : text = "" := String.toList_eq_nil_iff.mp empty
    rfl
  · have filled : byteLength text.toList ≠ 0 := mt byteLength_eq_zero.mp empty
    let opened : Assembly :=
      { source := text.toList
        top := { kind := .container .paragraph, start := 0 }
        below := [{ kind := .root, start := 0 }] }
    let collected : Assembly :=
      { opened with
        cursor := byteLength text.toList
        top := { opened.top with pending := some ⟨0, byteLength text.toList⟩ } }
    let closed : Assembly :=
      { source := text.toList
        cursor := byteLength text.toList
        top := { kind := .root, start := 0, children := (plainSketch text).read } }
    have first : Assembly.step { source := text.toList }
        ⟨.start .paragraph, ⟨0, byteLength text.toList⟩⟩ = .ok opened := rfl
    have second : opened.step ⟨.text text, ⟨0, byteLength text.toList⟩⟩ = .ok collected := by
      simp [Assembly.step, Assembly.inCodeBlock, Assembly.addText, Assembly.markupUntil, opened,
        collected, filled]
    have third : collected.step ⟨.stop, ⟨0, byteLength text.toList⟩⟩ = .ok closed := by
      simp [Assembly.step, Assembly.closeFrame, Assembly.markupUntil, Assembly.flush, collected,
        opened, closed, Assembly.nodesOf, charBefore?, cutAt?, slice_full, plainSketch, Sketch.read,
        Run.scan]
    refine Forest.ofEvents_eq_ok.mpr ⟨closed, ?_, ?_⟩
    · simp [plainEvents, Assembly.run, first, second, third, Except.bind]
    · simp [Assembly.finish, Assembly.markupUntil, Assembly.flush, closed]

/-- A renaming of a tag in two places. -/
theorem inSync_after_edit_iff_rename :
    let parse := fun text => Forest.ofEvents text (plainEvents text)
    let m := soleMemo "x #a (#b #a/" ["/a", "/b"]
    let call := plainTextCall (.renameMemoTag "memos/00000000000000000000000000000001" "a/" "c/d")
    ∃ m', (call.after [m]).find? (.ofNat 1) = some m' ∧ m'.content = "x #c/d (#b #c/d" ∧
      m'.InSync parse := by
  intro parse m call
  have follows : call.circumstances.parser.Follows parse := fun _ _ _ read => read
  have writes : ∀ nodes text, call.circumstances.writer nodes = some text →
      text = nodes.toMarkdownBy Leaf.built := by
    rintro nodes text ⟨⟩
    rfl
  have edits : call.request.Edits (.ofNat 1) (.rename "/a" "/c/d") :=
    .rename (by decide +kernel) (by decide +kernel) (by decide +kernel)
  have found : Collection.find? [m] (.ofNat 1) = some m := by decide +kernel
  have inSync : m.InSync parse := by decide +kernel
  have succeeded : (call.outcome [m]).1 = .ok (.retagged ⟨.ofNat 1, true⟩) := by decide +kernel
  have carried : m.payload.hasTag "/a" = true := by decide
  have chars : "/c/d".toList.all isTagChar = true := by decide +kernel
  obtain ⟨nodes, m', read, after, -, changed⟩ :=
    inSync_after_edit_iff follows writes edits found inSync succeeded
  obtain ⟨payload, -, -, sketched⟩ := changed carried
  obtain rfl : (plainSketch m.content).read = nodes :=
    Except.ok.inj ((ofEvents_plainEvents m.content).symm.trans read)
  obtain ⟨content, inSync_iff⟩ := sketched (plainSketch m.content) rfl
  have text : m'.content = "x #c/d (#b #c/d" := content.trans (by decide +kernel)
  have fits : Fits parse m'.content
      ((plainSketch m.content).edit (.rename "/a" "/c/d")).read.payload := by
    rw [text]
    decide +kernel
  have stays := (inSync_iff fits (fun _ other => by cases other)).1
  exact ⟨m', after, text, stays.mpr (List.all_eq_true.mp chars)⟩

/-- A tag moves up behind the one removed, an embed is joined from the brackets around it, and a new
path has a character that ends it. Each memo is stored with other tags, or without a resource, than
its text has. -/
theorem removal_joins_leftovers :
    let parse := fun text => Forest.ofEvents text (plainEvents text)
    let name := "memos/00000000000000000000000000000001"
    ∀ edited ∈ [("x #a#b", "x #b", Request.deleteMemoTag name "a"),
        ("![#a[x]]", "![[x]]", .deleteMemoTag name "a"),
        ("#a", "#x)y", .renameMemoTag name "a" "x)y")],
      let m := soleMemo edited.1 ["/a"]
      let call := plainTextCall edited.2.2
      m.InSync parse ∧ (call.outcome [m]).1.toOption = some (.retagged ⟨.ofNat 1, true⟩) ∧
        ∃ m' ∈ call.after [m], m'.content = edited.2.1 ∧ ¬ m'.InSync parse := by
  decide +kernel

end TaggedMemos
