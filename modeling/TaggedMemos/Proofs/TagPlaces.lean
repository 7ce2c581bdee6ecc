import TaggedMemos.Proofs.InlineGrammar
import TaggedMemos.Proofs.Scaffold
import TaggedMemos.Proofs.TagText

/-!
# The Places of Tags

Text is collected over several events and scanned later, when an event comes that may have nothing
to do with it, and what is scanned may be dropped with the construct it is in, or go on to the one
around. All the same, every tag of a forest stands somewhere in the text, and what it stands on was
delivered as text outside of links, images and code blocks.

The forest keeps what is in open constructs unless one of them, or one around them, becomes a leaf.
So while a text is read the tags to look at are those of `keptTags`, and `Tracked` says where they
stand: one after the other, up to an offset with the cursor and the run collected behind it. While a
link, an image or a code block is open, nothing is said of the run.

## Main results

* `inPlace_scanRun`: the tags of a run stand in it, none right behind a backslash.
* `Traced.step`: what one event preserves.
* `Traced.run`: what a stream preserves, by induction on its events.
* `tags_stand_in_text`: where the tags of a forest come from.
-/

namespace TaggedMemos

open Text

/-! ### What the events deliver -/

/-- Whether an event delivers text, or the end of a line of text. -/
def Event.isProse : Event → Bool
  | text _ | softBreak => true
  | _ => false

/-- The constructs that are open after an event, innermost first. -/
def Event.openedAfter (openings : List Opening) : Event → List Opening
  | start opening => opening :: openings
  | stop => openings.tail
  | _ => openings

/-- The constructs that are open after some events, innermost first. -/
def opened (events : List Located) : List Opening :=
  events.foldl (fun openings e => e.event.openedAfter openings) []

/-- A byte of the text is delivered as text if it is in the span of such an event, and no link,
image or code block is open when the event comes. -/
def Delivered (events : List Located) (n : Nat) : Prop :=
  ∃ before e after, events = before ++ e :: after ∧ e.event.isProse = true ∧
    (∀ opening ∈ opened before, opening.isLeaf = false) ∧ e.span.start ≤ n ∧ n < e.span.stop

/-- The constructs open after one more event. -/
theorem opened_append (events : List Located) (e : Located) :
    opened (events ++ [e]) = e.event.openedAfter (opened events) := by
  rw [opened, List.foldl_append]
  rfl

/-- What is delivered stays so with more events behind. -/
theorem Delivered.append {events : List Located} {n : Nat} (delivered : Delivered events n)
    (more : List Located) : Delivered (events ++ more) n := by
  obtain ⟨before, e, after, rfl, prose⟩ := delivered
  exact ⟨before, e, after ++ more, by simp, prose⟩

/-! ### Places of tags -/

/-- A tag stands in the text at a span: it is written there, byte by byte delivered, and there is no
backslash right before it. -/
structure StandsAt (source : List Char) (delivered : Nat → Prop) (raw : String) (place : Span) :
    Prop where
  /-- At this place there is a number sign, and the tag behind it. -/
  written : slice source place = '#' :: raw.toList
  /-- The tag is not empty. -/
  filled : raw ≠ ""
  /-- It consists of tag characters. -/
  chars : ∀ c ∈ raw.toList, isTagChar c = true
  /-- All of it is delivered. -/
  delivered : ∀ n, place.start ≤ n → n < place.stop → delivered n
  /-- It is not escaped. -/
  unescaped : charBefore? source place.start ≠ some '\\'

/-- Tags stand one after the other, from an offset on and up to another one. -/
inductive InPlace (stands : String → Span → Prop) : Nat → List String → Nat → Prop
  /-- No tags. -/
  | nil {start stop : Nat} (order : start ≤ stop) : InPlace stands start [] stop
  /-- A tag and those behind it. -/
  | cons {start stop : Nat} {raw : String} {place : Span} {tags : List String}
      (ahead : start ≤ place.start) (here : stands raw place)
      (behind : InPlace stands place.stop tags stop) : InPlace stands start (raw :: tags) stop

namespace InPlace

variable {stands stands' : String → Span → Prop} {start middle stop : Nat}
variable {tags tags' : List String}

/-- Tags that stand from an offset on do so from an earlier one. -/
theorem of_le (order : start ≤ middle) (placed : InPlace stands middle tags stop) :
    InPlace stands start tags stop := by
  cases placed with
  | nil order' => exact .nil (Nat.le_trans order order')
  | cons ahead here behind => exact .cons (Nat.le_trans order ahead) here behind

/-- Tags behind others stand in place if each part does. -/
theorem append (first : InPlace stands start tags middle)
    (second : InPlace stands middle tags' stop) : InPlace stands start (tags ++ tags') stop := by
  induction first with
  | nil order => exact second.of_le order
  | cons ahead here _ ih => exact .cons ahead here (ih second)

/-- Tags stand in place also for a weaker condition. -/
theorem mono (placed : InPlace stands start tags stop)
    (weaker : ∀ raw place, stands raw place → stands' raw place) :
    InPlace stands' start tags stop := by
  induction placed with
  | nil order => exact .nil order
  | cons ahead here _ ih => exact .cons ahead (weaker _ _ here) ih

end InPlace

/-- A tag stands at a span also if more counts as delivered. -/
theorem StandsAt.mono {source : List Char} {P Q : Nat → Prop} {raw : String} {place : Span}
    (stands : StandsAt source P raw place) (weaker : ∀ n, P n → Q n) :
    StandsAt source Q raw place :=
  ⟨stands.written, stands.filled, stands.chars,
    fun n from_start within => weaker n (stands.delivered n from_start within), stands.unescaped⟩

/-! ### The tags of leaves -/

/-- The text of a tag. -/
def Leaf.tagText? : Leaf → Option String
  | tag raw => some raw
  | _ => none

/-- The texts of the tags of a forest, each as often as it occurs. -/
def Forest.tagTexts (nodes : Forest) : List String :=
  nodes.leaves.filterMap Leaf.tagText?

@[simp] theorem Forest.tagTexts_nil : tagTexts [] = [] := rfl

/-- Two forests have their tags one after the other. -/
@[simp] theorem Forest.tagTexts_append (nodes nodes' : Forest) :
    tagTexts (nodes ++ nodes') = tagTexts nodes ++ tagTexts nodes' := by
  simp [tagTexts]

/-- A container has the tags inside of it. -/
@[simp] theorem Forest.tagTexts_container (kind : ContainerKind) (children : Forest) :
    tagTexts [.container kind children] = tagTexts children := by
  simp [tagTexts]

/-- Nodes that are leaves have the tags of the leaves. -/
theorem Forest.tagTexts_map_leaf (leaves : List Leaf) :
    tagTexts (leaves.map Node.leaf) = leaves.filterMap Leaf.tagText? := by
  simp [tagTexts]

/-- Text is no tag. -/
theorem filterMap_tagText?_textLeaf (plain : List Char) :
    (textLeaf plain).filterMap Leaf.tagText? = [] := by
  rw [textLeaf]
  split
  · rfl
  · rfl

/-! ### The tags of a run -/

/-- The character before an offset is the last one of what comes before it. -/
theorem charBefore?_append (before after : List Char) :
    charBefore? (before ++ after) (byteLength before) = before.getLast? := by
  rw [charBefore?, cutAt?_eq_some.mpr ⟨rfl, rfl⟩]
  rfl

/-- A tag that a scan finds stands where it is found. The scan remembers a backslash that is right
before. -/
theorem standsAt_of_leafAt? {previous : Option Char} {raw : String} {before rest : List Char}
    {width : Nat} {P : Nat → Prop} (after : List Char)
    (found : leafAt? previous ((Leaf.tag raw).written ++ rest) = some (.tag raw, width))
    (remembered : before.getLast? = some '\\' → previous = some '\\')
    (delivered : ∀ n, byteLength before ≤ n →
      n < byteLength (before ++ (Leaf.tag raw).written) → P n) :
    StandsAt (before ++ ((Leaf.tag raw).written ++ after)) P raw
      ⟨byteLength before, byteLength (before ++ (Leaf.tag raw).written)⟩ := by
  have tag := leafAt?_eq_tag.mp ⟨width, found⟩
  obtain ⟨-, filled, chars⟩ := tagAt?_eq_some tag
  obtain ⟨-, -, opens, -⟩ := tagAt?_eq_some_iff.mp tag
  refine ⟨slice_of_eq rfl rfl rfl, fun empty => filled (by simp [empty]), chars, delivered, ?_⟩
  rw [charBefore?_append]
  intro escaped
  rw [remembered escaped] at opens
  cases opens

/-- The tags that a scan finds stand one after the other in what it goes through. -/
theorem inPlace_scanFrom {P : Nat → Prop} (previous : Option Char) (text : List Char) :
    ∀ plain before after, (before.getLast? = some '\\' → previous = some '\\') →
      (∀ n, byteLength before ≤ n → n < byteLength (before ++ text) → P n) →
      InPlace (StandsAt (before ++ (text ++ after)) P) (byteLength before)
        ((scanFrom 0 previous plain text).filterMap Leaf.tagText?)
        (byteLength (before ++ text)) := by
  induction previous, text using scan_induction with
  | nil previous =>
      intro plain before after _ _
      rw [scanFrom, filterMap_tagText?_textLeaf]
      exact .nil (by simp)
  | found previous leaf rest found ih =>
      intro plain before after remembered delivered
      have filled : leaf.written ≠ [] := by
        have positive := (leafAt?_eq_some found).2.1
        exact List.ne_nil_of_length_pos positive
      have last : (before ++ leaf.written).getLast? = leaf.written.getLast? :=
        List.getLast?_append_of_ne_nil _ filled
      have behind := ih [] (before ++ leaf.written) after (fun escaped => last ▸ escaped)
        fun n from_start within => delivered n
          (by rw [byteLength_append] at from_start; omega) (by simpa using within)
      rw [scanFrom_found found, List.filterMap_append, filterMap_tagText?_textLeaf, List.nil_append]
      simp only [List.append_assoc] at behind ⊢
      rcases tag_or_embed_of_leafAt? found with ⟨raw, rfl⟩ | ⟨resource, rfl⟩
      · refine .cons (Nat.le_refl _) (standsAt_of_leafAt? _ found remembered ?_) behind
        intro n from_start within
        rw [byteLength_append] at within
        refine delivered n from_start ?_
        simp only [byteLength_append]
        omega
      · exact behind.of_le (by simp)
  | other previous c rest missing ih =>
      intro plain before after remembered delivered
      have further := ih (c :: plain) (before ++ [c]) after (by simp)
        fun n from_start within => delivered n
          (by rw [byteLength_append] at from_start; omega) (by simpa using within)
      rw [scanFrom_other missing]
      simp only [List.append_assoc, List.cons_append] at further ⊢
      exact further.of_le (by simp)

/-- **The tags of a run stand in it**, none right behind a backslash, since a run right behind one
is scanned as escaped. -/
theorem inPlace_scanRun {source : List Char} {run : Span} {P : Nat → Prop}
    (order : run.start ≤ run.stop) (start : IsBoundary source run.start)
    (stop : IsBoundary source run.stop)
    (delivered : ∀ n, run.start ≤ n → n < run.stop → P n) :
    InPlace (StandsAt source P) run.start
      ((scanRun (charBefore? source run.start == some '\\') (slice source run)).filterMap
        Leaf.tagText?) run.stop := by
  obtain ⟨begun, ended⟩ := run
  obtain ⟨before, after, divided, rfl, size⟩ := exists_slice order start stop
  have last : charBefore? source (byteLength before) = before.getLast? := by
    rw [divided, charBefore?_append]
  have tags := inPlace_scanFrom (P := P)
    (if before.getLast? == some '\\' then some '\\' else none)
    (slice source ⟨byteLength before, ended⟩) [] before after (fun escaped => by simp [escaped])
    (size ▸ delivered)
  rw [← divided, size] at tags
  rwa [last, scanRun]

/-! ### The tags that the forest keeps -/

/-- Whether the forest keeps what is inside of some open constructs: none of them becomes a leaf. -/
def keeps (frames : List Frame) : Bool :=
  frames.all fun frame => !frame.kind.isLeaf

/-- The tags inside of open constructs, innermost first, that the forest keeps. -/
def keptTags : List Frame → List String
  | [] => []
  | frame :: frames =>
    keptTags frames ++ if keeps (frame :: frames) then frame.children.tagTexts else []

/-- The tags of an open construct come after those of the constructs around it. -/
theorem keptTags_cons (frame : Frame) (frames : List Frame) :
    keptTags (frame :: frames) =
      keptTags frames ++ if keeps (frame :: frames) then frame.children.tagTexts else [] := rfl

/-- What is inside is kept if neither this construct nor one around it becomes a leaf. -/
theorem keeps_cons (frame : Frame) (frames : List Frame) :
    keeps (frame :: frames) = (!frame.kind.isLeaf && keeps frames) := by
  rw [keeps, List.all_cons]
  rfl

/-- What is kept depends on which constructs become leaves. -/
theorem keeps_eq (frames : List Frame) :
    keeps frames = (frames.map (·.kind.isLeaf)).all (!·) := by
  rw [keeps, List.all_map]
  rfl

/-- Which constructs become leaves can be told from their shapes. -/
theorem map_isLeaf_of_outline {frames frames' : List Frame}
    (same : frames'.map Frame.outline = frames.map Frame.outline) :
    frames'.map (·.kind.isLeaf) = frames.map (·.kind.isLeaf) := by
  have outlined : ∀ frames : List Frame,
      (frames.map Frame.outline).map (·.kind.isLeaf) = frames.map (·.kind.isLeaf) := by
    intro frames
    rw [List.map_map]
    refine List.map_congr_left fun frame _ => ?_
    obtain ⟨kind, start, children, pending⟩ := frame
    cases kind <;> rfl
  rw [← outlined frames', same, outlined frames]

/-- What is kept is the same for constructs with the same outline. -/
theorem keeps_of_outline {frames frames' : List Frame}
    (same : frames'.map Frame.outline = frames.map Frame.outline) :
    keeps frames' = keeps frames := by
  rw [keeps_eq, keeps_eq, map_isLeaf_of_outline same]

/-- The tags kept are the same for constructs with the same outline. -/
theorem keptTags_of_outline {frames frames' : List Frame}
    (same : frames'.map Frame.outline = frames.map Frame.outline) :
    keptTags frames' = keptTags frames := by
  induction frames generalizing frames' with
  | nil =>
      obtain rfl := List.map_eq_nil_iff.mp same
      rfl
  | cons frame frames ih =>
      have kept := keeps_of_outline same
      obtain ⟨frame', rest, rfl, alike, same⟩ := List.map_eq_cons_iff.mp same
      simp only [Frame.outline, Frame.mk.injEq] at alike
      obtain ⟨-, -, children, -⟩ := alike
      rw [keptTags, keptTags, ih same, kept, children]

/-- What is added to the innermost construct is kept if the whole stack is. -/
theorem keptTags_append {top top' : Frame} {nodes : Forest} (frames : List Frame)
    (kind : top'.kind = top.kind) (children : top'.children = top.children ++ nodes) :
    keptTags (top' :: frames) =
      keptTags (top :: frames) ++ if keeps (top :: frames) then nodes.tagTexts else [] := by
  have same : keeps (top' :: frames) = keeps (top :: frames) := by
    rw [keeps_cons, keeps_cons, kind]
  rw [keptTags, keptTags, same, children]
  cases keeps (top :: frames) with
  | true => simp
  | false => simp

/-- A leaf has none of the tags inside of it. -/
theorem tagTexts_nodesOf (frame : Frame) (raw : String) :
    (Assembly.nodesOf frame raw).tagTexts =
      if frame.kind.isLeaf then [] else frame.children.tagTexts := by
  rw [Assembly.nodesOf]
  cases frame.kind with
  | container kind => exact Forest.tagTexts_container kind _
  | link auto url title => cases auto <;> rfl
  | _ => rfl

/-- Closing a construct takes away what the forest does not keep, and nothing else. -/
theorem keptTags_close {top frame frame' : Frame} {raw : String} (frames : List Frame)
    (kind : frame'.kind = frame.kind)
    (children : frame'.children = frame.children ++ Assembly.nodesOf top raw) :
    keptTags (frame' :: frames) = keptTags (top :: frame :: frames) := by
  rw [keptTags_append frames kind children, tagTexts_nodesOf, keptTags_cons top, keeps_cons top]
  cases top.kind.isLeaf with
  | true => simp
  | false => simp

namespace Assembly

variable {a b : Assembly} {P Q : Nat → Prop} {n : Nat}

/-! ### Tracking the tags -/

/-- The tags kept so far stand in the text up to an offset. If what comes next is kept as well, then
the run collected lies behind this offset and is delivered. -/
structure Tracked (P : Nat → Prop) (a : Assembly) (n : Nat) : Prop where
  /-- The tags stand in the text. -/
  tags : InPlace (StandsAt a.source P) 0 (keptTags (a.top :: a.below)) n
  /-- The cursor is not before the offset. -/
  passed : n ≤ a.cursor
  /-- The run is behind the offset, and delivered. -/
  run : keeps (a.top :: a.below) = true → ∀ run, a.top.pending = some run →
    n ≤ run.start ∧ ∀ i, run.start ≤ i → i < run.stop → P i

/-- A sound assembly with all its tags in place. -/
structure Traced (P : Nat → Prop) (a : Assembly) : Prop where
  /-- The cursor and the run lie between characters. -/
  sound : a.Sound
  /-- Only the innermost construct has text that is not scanned. -/
  idle : ∀ frame ∈ a.below, frame.pending = none
  /-- The tags are in place. -/
  tracked : ∃ n, a.Tracked P n

/-- An advance leaves the same constructs open. -/
theorem keeps_of_advances (advances : a.Advances b) :
    keeps (b.top :: b.below) = keeps (a.top :: a.below) := by
  rw [keeps_cons, keeps_cons, keeps_of_outline advances.below,
    FrameKind.isLeaf_of_shape advances.shape]

/-- What is inside of code is not kept. -/
theorem isCode_of_keeps (kept : keeps (a.top :: a.below) = true) : a.top.kind.isCode = false := by
  rw [keeps_cons] at kept
  cases kind : a.top.kind with
  | codeBlock _ _ => simp [kind, FrameKind.isLeaf] at kept
  | _ => rfl

/-- Tags are tracked also if more counts as delivered. -/
theorem Tracked.mono (tracked : a.Tracked P n) (weaker : ∀ i, P i → Q i) : a.Tracked Q n := by
  refine ⟨tracked.tags.mono fun raw place stands => stands.mono weaker, tracked.passed, ?_⟩
  intro kept run pending
  obtain ⟨behind, delivered⟩ := tracked.run kept run pending
  exact ⟨behind, fun i from_start within => weaker i (delivered i from_start within)⟩

/-- Tags are in place also if more counts as delivered. -/
theorem Traced.mono (traced : a.Traced P) (weaker : ∀ i, P i → Q i) : a.Traced Q := by
  obtain ⟨n, tracked⟩ := traced.tracked
  exact ⟨traced.sound, traced.idle, n, tracked.mono weaker⟩

/-- Where an assembly goes on in the same construct, nothing is collected around it. -/
theorem idle_of_advances (advances : a.Advances b)
    (idle : ∀ frame ∈ a.below, frame.pending = none) :
    ∀ frame ∈ b.below, frame.pending = none := by
  intro frame member
  have outlined : frame.outline ∈ a.below.map Frame.outline := by
    rw [← advances.below]
    exact List.mem_map_of_mem member
  obtain ⟨frame', member', same⟩ := List.mem_map.mp outlined
  simp only [Frame.outline, Frame.mk.injEq] at same
  obtain ⟨-, -, -, pending⟩ := same
  rw [← pending]
  exact idle frame' member'

/-- Nodes without tags, laid at the cursor. -/
theorem Traced.append {nodes : Forest} {stop : Nat} (traced : a.Traced P)
    (flushed : a.top.pending = none) (order : a.cursor ≤ stop) (boundary : IsBoundary a.source stop)
    (untagged : nodes.tagTexts = []) : Traced P { a.append nodes with cursor := stop } := by
  obtain ⟨n, tracked⟩ := traced.tracked
  have same : keptTags ({ a.top with children := a.top.children ++ nodes } :: a.below) =
      keptTags (a.top :: a.below) ++ if keeps (a.top :: a.below) then nodes.tagTexts else [] :=
    keptTags_append a.below rfl rfl
  rw [untagged, ite_self, List.append_nil] at same
  refine ⟨⟨boundary, fun _ run pending => ?_⟩, traced.idle, n, ?_, ?_, fun _ run pending => ?_⟩
  · cases flushed.symm.trans pending
  · exact same ▸ tracked.tags
  · exact Nat.le_trans tracked.passed order
  · cases flushed.symm.trans pending

/-- Scanning the run puts its tags behind those before. -/
theorem Traced.flush (traced : a.Traced P) : a.flush.Traced P := by
  obtain ⟨n, tracked⟩ := traced.tracked
  have advances := flush_advances traced.sound
  refine ⟨advances.sound, idle_of_advances advances traced.idle, ?_⟩
  cases pending : a.top.pending with
  | none =>
      have same : a.flush = a := by rw [Assembly.flush, pending]
      rw [same]
      exact ⟨n, tracked⟩
  | some run =>
      have kind := flush_kind a
      have children : a.flush.top.children = a.top.children ++ (scanRun
          (charBefore? a.source run.start == some '\\') (slice a.source run)).map Node.leaf := by
        rw [Assembly.flush, pending]
      have tags := keptTags_append a.flush.below kind children
      rw [flush_below, Forest.tagTexts_map_leaf] at tags
      have none_left : ∀ run, a.flush.top.pending ≠ some run := by simp
      cases kept : keeps (a.top :: a.below) with
      | false =>
          rw [kept, if_neg Bool.false_ne_true, List.append_nil] at tags
          refine ⟨n, ?_, ?_, fun _ run left => absurd left (none_left run)⟩
          · rw [flush_below, tags, flush_source]
            exact tracked.tags
          · exact flush_cursor a ▸ tracked.passed
      | true =>
          obtain ⟨behind, delivered⟩ := tracked.run kept run pending
          obtain ⟨order, ends, begins⟩ := traced.sound.pending (isCode_of_keeps kept) run pending
          rw [kept, if_pos rfl] at tags
          refine ⟨run.stop, ?_, ?_, fun _ run left => absurd left (none_left run)⟩
          · rw [flush_below, tags, flush_source]
            have found := inPlace_scanRun order begins (ends ▸ traced.sound.cursor) delivered
            exact tracked.tags.append (found.of_le behind)
          · rw [flush_cursor, ends]

/-- Markup leaves the tags in place. -/
theorem Traced.markupUntil {stop : Nat} (traced : a.Traced P)
    (boundary : IsBoundary a.source stop) : (a.markupUntil stop).Traced P := by
  rw [Assembly.markupUntil]
  split
  · exact traced
  · next order =>
      refine traced.flush.append (flush_pending a) ?_ (by simpa using boundary) rfl
      rw [flush_cursor]
      omega

/-- A run that is collected behind the tags so far, and is delivered if it is kept. -/
theorem Tracked.collect {begun stop : Nat} (tracked : a.Tracked P n) (order : a.cursor ≤ stop)
    (collected : keeps (a.top :: a.below) = true →
      n ≤ begun ∧ ∀ i, begun ≤ i → i < stop → P i) :
    Tracked P { a with cursor := stop, top := { a.top with pending := some ⟨begun, stop⟩ } } n := by
  refine ⟨tracked.tags, Nat.le_trans tracked.passed order, fun kept run pending => ?_⟩
  obtain rfl := Option.some.inj pending
  exact collected kept

/-- Text is collected from the cursor on, or behind the run that ends there. -/
theorem Traced.addText {span : Span} (traced : a.Traced P)
    (start : IsBoundary a.source span.start) (stop : IsBoundary a.source span.stop)
    (delivered : keeps (a.top :: a.below) = true →
      ∀ i, span.start ≤ i → i < span.stop → P i) : (a.addText span).Traced P := by
  have advances := addText_advances traced.sound start stop
  refine ⟨advances.sound, idle_of_advances advances traced.idle, ?_⟩
  have marked := traced.markupUntil start
  have same := keeps_of_advances (markupUntil_advances traced.sound start)
  have begun : span.start ≤ (a.markupUntil span.start).cursor := by
    rw [markupUntil_cursor]
    exact Nat.le_max_right _ _
  rw [Assembly.addText]
  simp only [Nat.max_eq_right begun]
  generalize a.markupUntil span.start = m at marked same begun ⊢
  have new : keeps (m.top :: m.below) = true → ∀ i, m.cursor ≤ i → i < span.stop → P i :=
    fun kept i from_cursor => delivered (same ▸ kept) i (Nat.le_trans begun from_cursor)
  obtain ⟨n, tracked⟩ := marked.tracked
  split
  · exact ⟨n, tracked⟩
  · next ahead =>
      have order := Nat.le_of_not_le ahead
      split
      · next run pending =>
          split
          · next ends =>
              refine ⟨n, tracked.collect order fun kept => ?_⟩
              obtain ⟨behind, delivered⟩ := tracked.run kept run pending
              refine ⟨behind, fun i from_start within => ?_⟩
              rcases Nat.lt_or_ge i run.stop with before | after
              · exact delivered i from_start before
              · exact new kept i (ends ▸ after) within
          · next apart =>
              -- Only in a code block does a run end elsewhere, and that keeps nothing.
              obtain ⟨n', tracked'⟩ := marked.flush.tracked
              refine ⟨n', tracked'.collect (by simpa using order) fun kept => ?_⟩
              rw [keeps_of_advances (flush_advances marked.sound)] at kept
              exact absurd (marked.sound.pending (isCode_of_keeps kept) run pending).2.1 apart
      · exact ⟨n, tracked.collect order fun kept => ⟨tracked.passed, new kept⟩⟩

/-- What does not change the shapes of the open constructs does not change their tags. -/
theorem Tracked.of_outline (tracked : a.Tracked P n) (source : b.source = a.source)
    (cursor : a.cursor ≤ b.cursor)
    (same : (b.top :: b.below).map Frame.outline = (a.top :: a.below).map Frame.outline) :
    b.Tracked P n := by
  have pending : b.top.pending = a.top.pending := by
    rw [List.map_cons, List.map_cons, List.cons.injEq] at same
    simp only [Frame.outline, Frame.mk.injEq] at same
    exact same.1.2.2.2
  refine ⟨?_, Nat.le_trans tracked.passed cursor, ?_⟩
  · rw [source, keptTags_of_outline same]
    exact tracked.tags
  · rw [keeps_of_outline same, pending]
    exact tracked.run

/-- Code leaves the tags in place, being inside of a leaf. -/
theorem Traced.addCode {text : String} {span : Span} (traced : a.Traced P)
    (code : a.top.kind.isCode = true) (start : IsBoundary a.source span.start)
    (stop : IsBoundary a.source span.stop) : (a.addCode text span).Traced P := by
  have advances : a.Advances (a.addCode text span) :=
    addCode_advances traced.sound code start stop
  refine ⟨advances.sound, idle_of_advances advances traced.idle, ?_⟩
  obtain ⟨n, tracked⟩ := (traced.markupUntil start).tracked
  refine ⟨n, tracked.of_outline rfl (Nat.le_max_left _ _) ?_⟩
  rw [Assembly.addCode, List.map_cons, List.map_cons, List.cons.injEq]
  refine ⟨?_, rfl⟩
  cases kind : (a.markupUntil span.start).top.kind <;>
    simp [Frame.outline, FrameKind.shape, kind]

/-- A leaf that is no tag. -/
theorem Traced.addLeaf {leaf : Leaf} {span : Span} (traced : a.Traced P)
    (start : IsBoundary a.source span.start) (stop : IsBoundary a.source span.stop)
    (untagged : leaf.tagText? = none) : (a.addLeaf leaf span).Traced P := by
  have marked := traced.markupUntil start
  have source := markupUntil_source a span.start
  rw [Assembly.addLeaf]
  generalize a.markupUntil span.start = m at marked source ⊢
  refine marked.flush.append (flush_pending m) (Nat.le_max_left _ _) ?_ ?_
  · have cursor := marked.flush.sound.cursor
    have stop' : IsBoundary m.flush.source span.stop := by
      rw [flush_source, source]
      exact stop
    exact cursor.max stop'
  · simp [Forest.tagTexts, untagged]

/-- A task marker leaves the tags in place. -/
theorem Traced.markTask (traced : a.Traced P) (complete : Bool) :
    (a.markTask complete).Traced P := by
  have advances := markTask_advances traced.sound complete
  obtain ⟨n, tracked⟩ := traced.tracked
  refine ⟨advances.sound, idle_of_advances advances traced.idle, n, tracked.of_outline
    advances.source advances.cursor ?_⟩
  rw [markTask_frames, outline_markFirstItem]

/-- A construct without children has no tags, and what is around it is scanned before it opens. -/
theorem Traced.openFrame {start : Nat} (traced : a.Traced P) (opening : Opening)
    (boundary : IsBoundary a.source start) : (a.openFrame opening start).Traced P := by
  have sound := openFrame_sound opening traced.sound boundary
  have outer := (traced.markupUntil boundary).flush
  have flushed := flush_pending (a.markupUntil start)
  obtain ⟨n, tracked⟩ := outer.tracked
  refine ⟨sound, ?_, n, ?_, tracked.passed, fun _ run pending => by cases pending⟩
  · exact List.forall_mem_cons.mpr ⟨flushed, outer.idle⟩
  · rw [Assembly.openFrame, keptTags_cons]
    simpa using tracked.tags

/-- A construct that closes leaves the tags in place, or takes its own with it. -/
theorem Traced.closeFrame {stop : Nat} (traced : a.Traced P) (boundary : IsBoundary a.source stop)
    (closed : a.closeFrame stop = .ok b) : b.Traced P := by
  obtain ⟨frame, raw, around, source, cursor, top⟩ := closeFrame_eq_ok closed
  have inner := (traced.markupUntil boundary).flush
  have same : (a.markupUntil stop).flush.source = a.source := by simp
  generalize (a.markupUntil stop).flush = m at around cursor top inner same
  obtain ⟨n, tracked⟩ := inner.tracked
  have idle := inner.idle
  rw [around, List.forall_mem_cons] at idle
  have pending : b.top.pending = none := by
    rw [top]
    exact idle.1
  refine ⟨⟨?_, fun _ run left => ?_⟩, idle.2, n, ?_, ?_, fun _ run left => ?_⟩
  · rw [source, cursor, ← same]
    exact inner.sound.cursor.max (same ▸ boundary)
  · cases pending.symm.trans left
  · have tags : keptTags (b.top :: b.below) = keptTags (m.top :: m.below) := by
      rw [around]
      exact keptTags_close b.below (by rw [top]) (by rw [top])
    rw [tags, source, ← same]
    exact tracked.tags
  · exact cursor ▸ Nat.le_trans tracked.passed (Nat.le_max_left _ _)
  · cases pending.symm.trans left

/-! ### Streams -/

/-- The open constructs are those that some events have opened, and the forest around them. -/
def Aligned (events : List Located) (a : Assembly) : Prop :=
  a.bare.map (·.kind.isLeaf) = (opened events).map Opening.isLeaf ++ [false]

/-- What is inside of the open constructs is kept if no link, image or code block was opened. -/
theorem keeps_of_aligned {events : List Located} (aligned : Aligned events a) :
    keeps (a.top :: a.below) = true ↔ ∀ opening ∈ opened events, opening.isLeaf = false := by
  have kinds : a.bare.map (·.kind.isLeaf) = (a.top :: a.below).map (·.kind.isLeaf) := by
    rw [bare, List.map_map]
    refine List.map_congr_left fun frame _ => ?_
    obtain ⟨kind, start, children, pending⟩ := frame
    cases kind <;> rfl
  rw [keeps_eq, ← kinds, aligned]
  simp

/-- Task markers make no construct a leaf. -/
theorem map_isLeaf_markItems (markers : List Bool) (frames : List Frame) :
    (markItems markers frames).map (·.kind.isLeaf) = frames.map (·.kind.isLeaf) :=
  map_isLeaf_of_outline (outline_markItems markers frames)

/-- A plain event opens and closes nothing. -/
theorem openedAfter_of_plain {event : Event} (plain : event.isPlain = true)
    (openings : List Opening) : event.openedAfter openings = openings := by
  cases event with
  | start _ => cases plain
  | stop => cases plain
  | _ => rfl

/-- Events and frames stay aligned. -/
theorem Aligned.step {events : List Located} {e : Located} (aligned : Aligned events a)
    (stepped : a.step e = .ok b) : Aligned (events ++ [e]) b := by
  rw [Aligned, opened_append]
  by_cases plain : e.event.isPlain = true
  · obtain ⟨b', stepped', bare, -⟩ := step_plain plain a
    obtain rfl := Except.ok.inj (stepped'.symm.trans stepped)
    rw [bare, map_isLeaf_markItems, openedAfter_of_plain plain]
    exact aligned
  · obtain ⟨event, span⟩ := e
    cases event with
    | start opening =>
        obtain rfl := Except.ok.inj stepped
        rw [bare_openFrame, List.map_cons, isLeaf_frameKind, aligned]
        rfl
    | stop =>
        obtain ⟨frame, frames, bare⟩ := List.exists_cons_of_ne_nil (bare_ne_nil a)
        rw [Aligned, bare, List.map_cons] at aligned
        cases frames with
        | nil => cases stepped.symm.trans (closeFrame_error bare span.stop)
        | cons next frames =>
            obtain ⟨b', stepped', bare', -⟩ := closeFrame_bare bare (List.cons_ne_nil _ _) span.stop
            obtain rfl := Except.ok.inj (stepped'.symm.trans stepped)
            rw [bare']
            cases openings : opened events with
            | nil => simp [openings] at aligned
            | cons opening outer =>
                rw [openings] at aligned
                exact (List.cons.inj aligned).2
    | _ => exact absurd rfl plain

/-- **What one event preserves.** The text of an event is delivered by the event itself. -/
theorem Traced.step {events : List Located} {e : Located} (traced : a.Traced (Delivered events))
    (aligned : Aligned events a) (start : IsBoundary a.source e.span.start)
    (stop : IsBoundary a.source e.span.stop) (stepped : a.step e = .ok b) :
    b.Traced (Delivered (events ++ [e])) := by
  have traced : a.Traced (Delivered (events ++ [e])) :=
    traced.mono fun n delivered => delivered.append [e]
  have delivered : e.event.isProse = true → keeps (a.top :: a.below) = true →
      ∀ i, e.span.start ≤ i → i < e.span.stop → Delivered (events ++ [e]) i :=
    fun prose kept i from_start within =>
      ⟨events, e, [], rfl, prose, (keeps_of_aligned aligned).mp kept, from_start, within⟩
  obtain ⟨event, span⟩ := e
  cases event with
  | start opening =>
      obtain rfl := Except.ok.inj stepped
      exact traced.openFrame opening start
  | stop => exact traced.closeFrame stop stepped
  | text text =>
      obtain rfl := Except.ok.inj stepped
      rw [inCodeBlock_eq]
      cases code : a.top.kind.isCode with
      | true => exact traced.addCode code start stop
      | false => exact traced.addText start stop (delivered rfl)
  | softBreak =>
      obtain rfl := Except.ok.inj stepped
      exact traced.addText start stop (delivered rfl)
  | hardBreak =>
      obtain rfl := Except.ok.inj stepped
      exact traced.markupUntil stop
  | code code =>
      obtain rfl := Except.ok.inj stepped
      exact traced.addLeaf start stop rfl
  | html =>
      obtain rfl := Except.ok.inj stepped
      exact traced.addLeaf start stop rfl
  | rule =>
      obtain rfl := Except.ok.inj stepped
      exact traced.addLeaf start stop rfl
  | taskMarker complete =>
      obtain rfl := Except.ok.inj stepped
      have source := (markTask_advances traced.sound complete).source
      exact (traced.markTask complete).markupUntil (source ▸ stop)
  | other =>
      obtain rfl := Except.ok.inj stepped
      exact traced

/-- **What a stream preserves**, by induction on its events. -/
theorem Traced.run {events : List Located} (more : List Located)
    (traced : a.Traced (Delivered events)) (aligned : Aligned events a)
    (boundary : ∀ e ∈ more, IsBoundary a.source e.span.start ∧ IsBoundary a.source e.span.stop)
    (ran : a.run more = .ok b) :
    b.Traced (Delivered (events ++ more)) ∧ Aligned (events ++ more) b := by
  induction more generalizing a events with
  | nil =>
      obtain rfl := Except.ok.inj ran
      rw [List.append_nil]
      exact ⟨traced, aligned⟩
  | cons e more ih =>
      obtain ⟨d, stepped, further⟩ := run_cons_eq_ok.mp ran
      obtain ⟨⟨start, stop⟩, later⟩ := List.forall_mem_cons.mp boundary
      have source := source_of_step stepped
      have both := ih (traced.step aligned start stop stepped) (aligned.step stepped)
        (fun e member => source ▸ later e member) further
      rwa [List.append_assoc] at both

/-- Where only the forest itself is open, all its tags are kept. -/
theorem Traced.finish {events : List Located} (traced : a.Traced P) (aligned : Aligned events a)
    (closed : a.below = []) :
    ∃ nodes, a.finish = .ok nodes ∧
      InPlace (StandsAt a.source P) 0 nodes.tagTexts (byteLength a.source) := by
  have boundary := isBoundary_byteLength a.source
  have marked := traced.markupUntil boundary
  have advances := (markupUntil_advances traced.sound boundary).trans traced.sound
    (flush_advances marked.sound)
  have whole := marked.flush
  have kept : keeps (a.top :: a.below) = true := by
    rw [keeps_of_aligned aligned]
    rw [Aligned, bare, closed] at aligned
    cases openings : opened events with
    | nil => exact fun _ member => absurd member List.not_mem_nil
    | cons opening outer => simp [openings] at aligned
  rw [← keeps_of_advances advances] at kept
  unfold Assembly.finish
  simp only
  generalize (a.markupUntil (byteLength a.source)).flush = m at advances whole kept ⊢
  have closed' : m.below = [] := by simpa [closed] using advances.below
  obtain ⟨n, tracked⟩ := whole.tracked
  have tags := tracked.tags
  rw [keptTags_cons, kept, closed', if_pos rfl, keptTags, List.nil_append, advances.source] at tags
  have passed := Nat.le_trans tracked.passed whole.sound.cursor.le_byteLength
  rw [advances.source] at passed
  refine ⟨m.top.children, by simp [closed'], ?_⟩
  simpa using tags.append (.nil passed)

end Assembly

/-- **Tags come from text alone.** A balanced stream with spans between characters is read into a
forest, and the tags of the forest stand in the text one after the other: each at a place where the
number sign and all characters of the tag were delivered as text while no link, image or code block
was open, and not right behind a backslash. -/
theorem tags_stand_in_text {source : String} {events : List Located} (balanced : Balanced events)
    (boundary : ∀ e ∈ events,
      IsBoundary source.toList e.span.start ∧ IsBoundary source.toList e.span.stop) :
    ∃ nodes, Forest.ofEvents source events = .ok nodes ∧
      InPlace (StandsAt source.toList (Delivered events)) 0 nodes.tagTexts
        (byteLength source.toList) := by
  let start : Assembly := { source := source.toList }
  have begins : start.Traced (Delivered []) :=
    ⟨⟨isBoundary_zero _, fun _ _ pending => by cases pending⟩, by simp [start], 0,
      .nil (Nat.le_refl 0), Nat.le_refl 0, fun _ _ pending => by cases pending⟩
  obtain ⟨a, ran, depth⟩ := Assembly.exists_run_of_balanced balanced start
  obtain ⟨traced, aligned⟩ := begins.run events rfl boundary ran
  obtain ⟨nodes, finished, tags⟩ := traced.finish aligned (List.length_eq_zero_iff.mp depth)
  rw [Assembly.source_of_run ran] at tags
  refine ⟨nodes, ?_, tags⟩
  rw [Forest.ofEvents, ran, Except.bind]
  exact finished

/-- The events of a paragraph with a tag in two pieces, an escaped number sign, number signs in code
and in a link, and a tag in emphasis. -/
def scatteredSigns : List Located :=
  [⟨.start .paragraph, ⟨0, 27⟩⟩, ⟨.text "#a", ⟨0, 2⟩⟩, ⟨.text "_b ", ⟨2, 5⟩⟩,
    ⟨.text "#c ", ⟨6, 9⟩⟩, ⟨.code "#d", ⟨9, 13⟩⟩, ⟨.text " ", ⟨13, 14⟩⟩,
    ⟨.start (.link false "u" ""), ⟨14, 21⟩⟩, ⟨.text "#e", ⟨15, 17⟩⟩, ⟨.stop, ⟨14, 21⟩⟩,
    ⟨.softBreak, ⟨21, 22⟩⟩, ⟨.start .emphasis, ⟨22, 27⟩⟩, ⟨.text "(#f", ⟨23, 26⟩⟩,
    ⟨.stop, ⟨22, 27⟩⟩, ⟨.stop, ⟨0, 27⟩⟩]

/-- Two of the five number signs begin a tag. -/
theorem tags_stand_in_text_scattered :
    Balanced scatteredSigns ∧
    (∀ e ∈ scatteredSigns,
      IsBoundary "#a_b \\#c `#d` [#e](u)\n*(#f*".toList e.span.start ∧
      IsBoundary "#a_b \\#c `#d` [#e](u)\n*(#f*".toList e.span.stop) ∧
    InPlace (StandsAt "#a_b \\#c `#d` [#e](u)\n*(#f*".toList (Delivered scatteredSigns)) 0
      ["a_b", "f"] 27 := by
  have inside : Balanced [⟨.text "#e", ⟨15, 17⟩⟩] := .plain rfl .nil
  have emphasized : Balanced [⟨.text "(#f", ⟨23, 26⟩⟩] := .plain rfl .nil
  have balanced : Balanced scatteredSigns :=
    .nested (.plain rfl <| .plain rfl <| .plain rfl <| .plain rfl <| .plain rfl <|
      .nested inside <| .plain rfl <| .nested emphasized .nil) .nil
  have boundary : ∀ e ∈ scatteredSigns,
      IsBoundary "#a_b \\#c `#d` [#e](u)\n*(#f*".toList e.span.start ∧
      IsBoundary "#a_b \\#c `#d` [#e](u)\n*(#f*".toList e.span.stop := by decide +kernel
  obtain ⟨nodes, read, tags⟩ := tags_stand_in_text balanced boundary
  have texts : (Forest.ofEvents "#a_b \\#c `#d` [#e](u)\n*(#f*" scatteredSigns).toOption.map
      Forest.tagTexts = some ["a_b", "f"] := by decide +kernel
  rw [read] at texts
  have same : nodes.tagTexts = ["a_b", "f"] := Option.some.inj texts
  rw [same] at tags
  exact ⟨balanced, boundary, tags⟩

end TaggedMemos
