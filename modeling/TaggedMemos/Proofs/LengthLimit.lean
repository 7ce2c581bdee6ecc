import Mathlib.Algebra.Order.BigOperators.Group.List
import Mathlib.Algebra.Order.Group.Nat
import Mathlib.Data.List.Flatten
import TaggedMemos.Proofs.EditedText
import TaggedMemos.Proofs.Lossless
import TaggedMemos.Proofs.Rewriting
import TaggedMemos.Proofs.Stripping

/-!
# The Length of Texts

The text of a memo is measured where a client gives one: when the memo is made, and when it is
updated. Edits of tags write texts as well, and do not measure them. Taking a tag out makes no text
longer, and neither does a new path that is no longer than the old one. A longer path takes a text
beyond the limit if there is room for too few characters, or if the marker occurs too often.

So the limit is kept by every call but for renamings to a longer path. A memo beyond the limit has
got there by such a renaming, and it was within the limit before.

## Main results

* `Tag.length_replaceMarker_le`, `TagEdit.length_toMarkdownBy_le`: edits that make no text longer.
* `Call.measures_saved`: what a call can do to the lengths of texts.
* `accounted_states`: what a history does to them.
* `within_limit_or_overrun`: how a memo gets beyond the limit.
-/

namespace TaggedMemos

open Collection Text

/-! ### Edits that make no text longer -/

/-- A number sign takes the place of the slash that a canonical path begins with. -/
theorem TagPath.IsCanonical.length_marker {path : String} (canonical : TagPath.IsCanonical path) :
    (TagPath.marker path).toList.length = path.length := by
  rw [TagPath.marker, String.toList_ofList, List.length_cons, ← String.length_toList,
    canonical.toList_eq, List.length_cons]

/-- Removing a marker makes no text longer. -/
theorem Tag.length_stripMarker_le (text path : String) :
    (Tag.stripMarker text path).length ≤ text.length := by
  have removed : ∀ old cs : List Char, (replaceAll old [] cs).length ≤ cs.length := by
    intro old cs
    exact length_replaceAll_le (by simp) cs
  have both := (removed (TagPath.marker path).toList _).trans
    (removed ((TagPath.marker path).toList ++ [' ']) text.toList)
  rw [String.length_toList] at both
  rw [Tag.stripMarker, String.length_ofList]
  exact (length_trim_le _).trans both

/-- Neither does replacing it by that of a path that is no longer. -/
theorem Tag.length_replaceMarker_le {old new : String} (canonical : TagPath.IsCanonical old)
    (canonical' : TagPath.IsCanonical new) (shorter : new.length ≤ old.length) (text : String) :
    (Tag.replaceMarker text old new).length ≤ text.length := by
  have markers : (TagPath.marker new).toList.length ≤ (TagPath.marker old).toList.length := by
    rwa [canonical.length_marker, canonical'.length_marker]
  have replaced := length_replaceAll_le markers text.toList
  rw [String.length_toList] at replaced
  rwa [Tag.replaceMarker, String.length_ofList]

/-- The pieces of a text with a separator in front of each have one character more. -/
theorem length_flatMap_splitAt (sep : Char) (cs : List Char) :
    ((splitAt sep cs).flatMap (sep :: ·)).length = cs.length + 1 := by
  induction cs with
  | nil => rfl
  | cons c cs ih =>
      by_cases here : c = sep
      · rw [splitAt, if_pos here, List.flatMap_cons, List.length_append, ih, List.length_cons,
          List.length_cons, List.length_nil, Nat.add_comm]
      · obtain ⟨first, pieces, whole, longer⟩ := splitAt_cons cs here
        rw [whole, List.flatMap_cons, List.length_append, List.length_cons] at ih
        rw [longer, List.flatMap_cons, List.length_append, List.length_cons, List.length_cons,
          List.length_cons]
        omega

/-- A path is longer than the text it comes from by its first slash at most. -/
theorem TagPath.length_normalize_le (raw : String) :
    (TagPath.normalize raw).length ≤ raw.length + 1 := by
  have kept : ((pieces raw.toList).flatMap ('/' :: ·)).Sublist
      ((splitAt '/' raw.toList).flatMap ('/' :: ·)) := List.filter_sublist.flatMap _
  have whole := kept.length_le
  rw [length_flatMap_splitAt, String.length_toList] at whole
  rw [normalize, String.length_ofList]
  unfold written
  split
  · simp
  · exact whole

namespace TagEdit

/-- An edit that may make a text longer: a renaming to a path that is longer than the old one. -/
def Lengthens : TagEdit → Prop
  | remove _ => False
  | rename old new => old.length < new.length

/-- What is written in the place of a leaf is no longer than the leaf. -/
theorem length_writtenLeaf_le {edit : TagEdit} (canonical : edit.IsCanonical)
    (keeps : ¬ edit.Lengthens) (build : Leaf → List Char) (l : Leaf) :
    (edit.writtenLeaf build l).length ≤ (l.writtenBy build).length := by
  cases l with
  | tag raw =>
      have kept : (Leaf.tag raw).writtenBy build = '#' :: raw.toList := rfl
      by_cases on : TagPath.normalize raw = edit.path
      · rw [writtenLeaf, if_pos on, kept]
        cases edit with
        | remove path => exact Nat.zero_le _
        | rename old new =>
            have read := TagPath.length_normalize_le raw
            have marker := canonical.length_marker
            rw [on] at read
            rw [TagPath.marker, String.toList_ofList] at marker
            rw [mark, marker, List.length_cons, String.length_toList]
            exact Nat.le_trans (Nat.le_of_not_lt keeps) read
      · rw [writtenLeaf, if_neg on, kept]
  | _ => exact Nat.le_refl _

/-- The text of an edited forest is no longer than that of the forest. -/
theorem length_toMarkdownBy_le {edit : TagEdit} (canonical : edit.IsCanonical)
    (keeps : ¬ edit.Lengthens) (build : Leaf → List Char) (nodes : Forest) :
    ((edit.forest nodes).toMarkdownBy build).length ≤ (nodes.toMarkdownBy build).length := by
  rw [← String.length_toList, toMarkdownBy_forest, Forest.toMarkdownBy, String.length_ofList,
    List.length_flatMap, List.length_flatMap]
  exact List.sum_le_sum fun l _ => length_writtenLeaf_le canonical keeps build l

end TagEdit

/-! ### Requests that make texts longer -/

/-- A renaming to a path that is longer than the old one. -/
inductive Request.Lengthens : Request → Prop
  /-- In every memo. -/
  | everywhere {oldInput newInput old new : String} {moveChildren : Bool}
      (accepted : TagPath.validate oldInput = .ok old)
      (accepted' : TagPath.validate newInput = .ok new) (longer : old.length < new.length) :
      Lengthens (.renameTag oldInput newInput moveChildren)
  /-- In one memo. -/
  | inOneMemo {name oldInput newInput old new : String}
      (accepted : TagPath.validate oldInput = .ok old)
      (accepted' : TagPath.validate newInput = .ok new) (longer : old.length < new.length) :
      Lengthens (.renameMemoTag name oldInput newInput)

/-- An edit of one memo may make its text longer only if the request is for that. -/
theorem Request.Edits.lengthens {request : Request} {id : MemoId} {edit : TagEdit}
    (edits : request.Edits id edit) (longer : edit.Lengthens) : request.Lengthens := by
  cases edits with
  | remove _ _ => exact longer.elim
  | rename _ accepted accepted' => exact .inOneMemo accepted accepted' longer

/-- An edit of every memo makes texts longer only if the request is for that. -/
theorem Request.Unmarks.length_le {request : Request} {path : String} {edit : String → String}
    (unmarks : request.Unmarks path edit) (keeps : ¬ request.Lengthens) (text : String) :
    (edit text).length ≤ text.length := by
  cases unmarks with
  | delete accepted => exact Tag.length_stripMarker_le text path
  | rename accepted accepted' =>
      exact Tag.length_replaceMarker_le (TagPath.isCanonical_of_validate accepted).1
        (TagPath.isCanonical_of_validate accepted').1
        (Nat.le_of_not_lt fun longer => keeps (.everywhere accepted accepted' longer)) text

/-! ### What each save does to the lengths of texts -/

/-- A collection that a call on `memos` may store: each text is within the limit, or no longer than
the text that its memo had before, unless the request makes texts longer. -/
def Call.Measures (call : Call) (limit : Nat) (memos s : Collection) : Prop :=
  ∀ m' ∈ s, m'.content.length ≤ limit ∨
    ∃ m ∈ memos, m.id = m'.id ∧
      (m'.content.length ≤ m.content.length ∨ call.request.Lengthens)

section Measures

open TaggedMemos.Action Service

variable {call : Call} {limit : Nat} {memos s : Collection} {id : MemoId} {change : Memo → Memo}

/-- What is stored already may be stored: no text is longer than it was. -/
theorem Call.Measures.refl (call : Call) (limit : Nat) (memos : Collection) :
    call.Measures limit memos memos :=
  fun m member => .inr ⟨m, member, rfl, .inl (Nat.le_refl _)⟩

/-- A memo may get a text that is measured. -/
theorem Call.Measures.modify (measured : call.Measures limit memos s)
    (changed : ∀ m, s.find? id = some m → (change m).content.length ≤ limit ∨
      ∃ m₀ ∈ memos, m₀.id = (change m).id ∧
        ((change m).content.length ≤ m₀.content.length ∨ call.request.Lengthens)) :
    call.Measures limit memos (s.modify id change) := by
  intro m' member
  rcases mem_modify member with before | ⟨m, found, rfl⟩
  · exact measured m' before
  · exact changed m found

/-- Memos may be removed. -/
theorem Call.Measures.without (measured : call.Measures limit memos s) :
    call.Measures limit memos (s.without id) :=
  fun m' member => measured m' (List.mem_of_mem_filter member)

variable {c : Circumstances} {request : Request} {start : Collection}

/-- A memo of the collection that a call began with gets its text edited. -/
def Rewrites (c : Circumstances) (request : Request) (start s s' : Collection) : Prop :=
  ∃ path edit m payload tries, request.Unmarks path edit ∧ m ∈ start ∧
    s' = s.modify m.id
      (Change.apply { content := some (edit m.content), payload := some payload } (c.now tries))

/-- Every save of a request that rewrites a marker is the edited text of a memo from the start. -/
theorem rewrites_replaceContent {P : Collection → Prop} {path : String} {edit : String → String}
    {m : Memo} {text : String} (unmarks : request.Unmarks path edit) (known : m ∈ start)
    (edited : text = edit m.content) :
    Saves c (Rewrites c request start) P (Store.replaceContent m.id text) (fun _ _ => True) := by
  subst edited
  refine (Saves.payloadOf _).bind fun payload => ?_
  exact (Saves.update fun s tries _ _ =>
    ⟨path, edit, m, payload, tries, unmarks, known, rfl⟩).imp_after fun _ _ _ => trivial

/-- Renaming a tag in every memo edits texts of memos that it found. -/
theorem rewrites_renameTag (oldInput newInput : String) (moveChildren : Bool) :
    Saves c (Rewrites c (.renameTag oldInput newInput moveChildren) start) (fun s => s = start)
      (renameTag oldInput newInput moveChildren) (fun _ _ => True) := by
  refine (Saves.requirePath _ _).bind fun old => Saves.given fun _ ⟨accepted, _⟩ => ?_
  refine Saves.imp_before ?_ fun _ h => h.2
  refine (Saves.requirePath _ _).bind fun new => Saves.given fun _ ⟨accepted', _⟩ => ?_
  refine Saves.imp_before ?_ fun _ h => h.2
  refine (saves_ownedWith _).bind fun memos => Saves.given fun _ listed => ?_
  refine Saves.ite_throw fun _ => (saves_sweep _ memos fun m member => ?_).bind fun ids => ?_
  · have unmarks : Request.Unmarks (.renameTag oldInput newInput moveChildren) old
        (Tag.replaceMarker · old new) := .rename accepted accepted'
    exact rewrites_replaceContent unmarks (listed m member).1 rfl
  · exact Saves.after_quiet (.note _) fun _ => .pure fun _ _ => trivial

/-- Removing a tag from every memo edits texts of memos that it found. -/
theorem rewrites_deleteTag (input : String) :
    Saves c (Rewrites c (.deleteTag input .removeFromContent) start) (fun s => s = start)
      (deleteTag input .removeFromContent) (fun _ _ => True) := by
  refine (Saves.requirePath _ _).bind fun path => Saves.given fun _ ⟨accepted, _⟩ => ?_
  refine Saves.imp_before ?_ fun _ h => h.2
  refine Saves.ite_throw fun _ => ?_
  refine (saves_ownedWith _).bind fun memos => Saves.given fun _ listed => ?_
  refine (saves_sweep _ memos fun m member => ?_).bind fun ids => ?_
  · have unmarks : Request.Unmarks (.deleteTag input .removeFromContent) path
        (Tag.stripMarker · path) := .delete accepted
    exact rewrites_replaceContent unmarks (listed m member).1 rfl
  · exact Saves.after_quiet (.note _) fun _ => .pure fun _ _ => trivial

/-- A call that commits saves what its outcome allows. -/
theorem Call.forall_saved_of_commits {I : Collection → Prop}
    (commits :
      Commits call.circumstances memos call.request.perform fun _ next => ∀ s ∈ next, I s) :
    ∀ s ∈ call.saved memos, I s := by
  obtain ⟨fails, succeeds⟩ := Call.outcome_of_commits commits
  cases ends : (call.outcome memos).1 with
  | error fault => simp [fails fault ends]
  | ok answer =>
      obtain ⟨next, saved, holds⟩ := succeeds answer ends
      rw [saved]
      exact fun s member => holds s (Option.mem_toList.mp member)

/-- A call that edits the texts of memos that it found measures them by the texts before. -/
theorem Call.measures_of_rewrites
    (saves : Saves call.circumstances (Rewrites call.circumstances call.request memos)
      (fun s => s = memos) call.request.perform fun _ _ => True) :
    ∀ s ∈ call.saved memos, call.Measures limit memos s := by
  refine (Call.linked_saved saves rfl).forall_mem ?_ (.refl call limit memos)
  rintro s _ measured ⟨path, edit, m, payload, tries, unmarks, known, rfl⟩
  refine measured.modify fun m' found => .inr ⟨m, known, (find?_eq_some found).2.symm, ?_⟩
  by_cases longer : call.request.Lengthens
  · exact .inr longer
  · exact .inl (unmarks.length_le longer m.content)

/-- A call that writes no text keeps or drops the texts that there are. -/
theorem Call.measures_of_revisions (makes : call.request.creates = false)
    (rewrites : call.request.rewrites = false) (edits : call.request.editsOneMemo = false) :
    ∀ s ∈ call.saved memos, call.Measures limit memos s := by
  refine (Call.linked_revision call memos).forall_mem ?_ (.refl call limit memos)
  intro s s' measured revision
  cases revision with
  | add creates => simp [makes] at creates
  | rewrite changes => simp [rewrites] at changes
  | retag changes => simp [edits] at changes
  | refresh => exact measured.modify fun m found => measured m (find?_eq_some found).1
  | remove => exact measured.without

/-- **What a call can do to the lengths of texts.** Texts that a client gives are within the limit,
and all others are no longer than before, but for renamings to a longer path. -/
theorem Call.measures_saved {build : Leaf → List Char}
    (limited : call.circumstances.settings.contentLimit ≤ limit)
    (lossless : ∀ reads text nodes, call.circumstances.parser reads text = .ok nodes →
      nodes.toMarkdownBy build = text)
    (writes : ∀ nodes text, call.circumstances.writer nodes = some text →
      text = nodes.toMarkdownBy build) :
    ∀ s ∈ call.saved memos, call.Measures limit memos s := by
  obtain ⟨c, request⟩ := call
  have edits : request.editsOneMemo = true →
      ∀ s ∈ Call.saved ⟨c, request⟩ memos, Call.Measures ⟨c, request⟩ limit memos s := by
    intro edits
    refine Call.forall_saved_of_commits ((commits_edit edits).imp ?_)
    rintro _ next ⟨_, id, edit, m, rfl, edits, found, -, retags⟩ s saved
    cases retags with
    | spared _ => cases saved
    | @edited reads nodes text _ read written =>
        obtain rfl := Option.mem_some_iff.mp saved
        refine (Call.Measures.refl _ limit memos).modify fun m' found' => .inr
          ⟨m, (find?_eq_some found).1, (find?_eq_some found').2.symm, ?_⟩
        by_cases longer : edit.Lengthens
        · exact .inr (edits.lengthens longer)
        · have shorter := edit.length_toMarkdownBy_le edits.isCanonical longer build nodes
          rw [lossless _ _ _ read, ← writes _ _ written] at shorter
          exact .inl shorter
  cases request with
  | createMemo content parent =>
      refine Call.forall_saved_of_commits ((commits_createMemo content parent).map ?_)
      rintro _ next ⟨above, payload, short, -, -, -, rfl, rfl⟩ s saved m member
      obtain rfl := Option.mem_some_iff.mp saved
      rcases List.mem_append.mp member with member | member
      · exact Call.Measures.refl _ limit memos m member
      · obtain rfl := List.mem_singleton.mp member
        exact .inl (short.trans limited)
  | updateMemo name content =>
      refine Call.forall_saved_of_commits ((commits_updateMemo name content).map ?_)
      rintro _ next ⟨m, payload, short, -, -, rfl, rfl⟩ s saved
      obtain rfl := Option.mem_some_iff.mp saved
      exact (Call.Measures.refl _ limit memos).modify fun _ _ => .inl (short.trans limited)
  | renameTag old new moveChildren =>
      exact Call.measures_of_rewrites
        ((rewrites_renameTag old new moveChildren).bind fun _ => .pure fun _ _ => trivial)
  | deleteTag path strategy =>
      cases strategy with
      | removeFromContent =>
          exact Call.measures_of_rewrites
            ((rewrites_deleteTag path).bind fun _ => .pure fun _ _ => trivial)
      | deleteMemos => exact Call.measures_of_revisions rfl rfl rfl
      | unspecified => exact Call.measures_of_revisions rfl rfl rfl
  | renameMemoTag name old new => exact edits rfl
  | deleteMemoTag name path => exact edits rfl
  | _ => exact Call.measures_of_revisions rfl rfl rfl

end Measures

/-! ### Histories -/

/-- The collection that a history leaves behind, from the empty store on. -/
def afterAll (calls : List Call) : Collection :=
  calls.foldl (fun memos call => call.after memos) []

/-- One call more runs on what the others have left. -/
theorem afterAll_concat (calls : List Call) (call : Call) :
    afterAll (calls ++ [call]) = call.after (afterAll calls) := by
  simp [afterAll]

/-- A call on `memos` takes a memo with an identifier beyond the limit. -/
structure Call.Overruns (call : Call) (memos : Collection) (limit : Nat) (id : MemoId) : Prop where
  /-- The call renames a tag to a longer path. -/
  lengthens : call.request.Lengthens
  /-- Before, the text is within the limit. -/
  within : ∃ m ∈ memos, m.id = id ∧ m.content.length ≤ limit
  /-- After some save, it is not. -/
  beyond : ∃ s ∈ call.saved memos, ∃ m ∈ s, m.id = id ∧ limit < m.content.length

/-- Some call of a history takes a memo with an identifier beyond the limit. -/
def Overrun (limit : Nat) (calls : List Call) (id : MemoId) : Prop :=
  ∃ earlier call later, calls = earlier ++ call :: later ∧
    call.Overruns (afterAll earlier) limit id

/-- Each text is within the limit, or its memo was taken beyond it. -/
def Collection.Accounted (limit : Nat) (calls : List Call) (s : Collection) : Prop :=
  ∀ m ∈ s, m.content.length ≤ limit ∨ Overrun limit calls m.id

section Histories

variable {limit : Nat} {call : Call} {calls earlier : List Call} {s : Collection}

/-- A memo that some call took beyond the limit is one also when more calls follow. -/
theorem Overrun.append {id : MemoId} (overrun : Overrun limit calls id) (more : List Call) :
    Overrun limit (calls ++ more) id := by
  obtain ⟨earlier, call, later, rfl, overruns⟩ := overrun
  exact ⟨earlier, call, later ++ more, by simp, overruns⟩

/-- One more call leaves every text accounted for, if it measures them. -/
theorem accounted_saved (accounted : (afterAll earlier).Accounted limit earlier)
    (measured : ∀ s ∈ call.saved (afterAll earlier), call.Measures limit (afterAll earlier) s) :
    ∀ s ∈ call.saved (afterAll earlier), s.Accounted limit (earlier ++ [call]) := by
  intro s saved m' member
  by_cases short : m'.content.length ≤ limit
  · exact .inl short
  · have long : limit < m'.content.length := Nat.lt_of_not_le short
    rcases measured s saved m' member with short' | ⟨m, known, same, shorter | longer⟩
    · exact absurd short' short
    · rcases accounted m known with short' | overrun
      · exact absurd (shorter.trans short') short
      · exact .inr (same ▸ overrun.append [call])
    · rcases accounted m known with short' | overrun
      · exact .inr ⟨earlier, call, [], rfl, longer, ⟨m, known, same, short'⟩,
          ⟨s, saved, m', member, rfl, long⟩⟩
      · exact .inr (same ▸ overrun.append [call])

/-- So does every further call of a history. The induction is on the calls that are left. -/
theorem accounted_states (accounted : (afterAll earlier).Accounted limit earlier)
    (measured : ∀ call ∈ calls, ∀ memos, ∀ s ∈ call.saved memos, call.Measures limit memos s) :
    ∀ s ∈ states (afterAll earlier) calls, s.Accounted limit (earlier ++ calls) := by
  induction calls generalizing earlier with
  | nil =>
      intro s reached
      obtain rfl := List.mem_singleton.mp reached
      simpa using accounted
  | cons call calls ih =>
      have whole : earlier ++ call :: calls = (earlier ++ [call]) ++ calls := by simp
      have initial : (afterAll earlier).Accounted limit (earlier ++ [call]) := fun m member =>
        (accounted m member).imp_right fun overrun => overrun.append [call]
      have during := accounted_saved accounted (measured call (by simp) (afterAll earlier))
      have final := Call.after_of_saved initial during
      have extend : ∀ s, Collection.Accounted limit (earlier ++ [call]) s →
          s.Accounted limit (earlier ++ call :: calls) := fun s accounted m member =>
        (accounted m member).imp_right fun overrun => whole ▸ overrun.append calls
      intro s reached
      rw [states, List.mem_append, List.mem_cons, List.mem_reverse] at reached
      rcases reached with (rfl | saved) | reached
      · exact extend _ initial
      · exact extend s (during s saved)
      · rw [whole]
        rw [← afterAll_concat] at final reached
        exact ih final (fun call' later => measured call' (by simp [later])) s reached

/-- **How a memo gets beyond the limit.** In every state of a history that begins with the empty
store, the text of a memo is within the limit, or the history has a renaming to a longer path that
took the memo beyond it. Said of the calls up to that state, the renaming is one of them. A history
without such renamings keeps within the limit. -/
theorem within_limit_or_overrun {events : String → List Located} {build : Leaf → List Char}
    (limits : ∀ call ∈ calls, call.circumstances.settings.contentLimit = limit)
    (faithful : ∀ text, Faithful text.toList (events text))
    (follows : ∀ call ∈ calls,
      call.circumstances.parser.Follows fun text => Forest.ofEvents text (events text))
    (writes : ∀ call ∈ calls, ∀ nodes text, call.circumstances.writer nodes = some text →
      text = nodes.toMarkdownBy build) :
    ∀ s ∈ states [] calls, ∀ m ∈ s, m.content.length ≤ limit ∨
      ∃ earlier call later, calls = earlier ++ call :: later ∧
        call.Overruns (afterAll earlier) limit m.id := by
  have measured : ∀ call ∈ calls, ∀ memos, ∀ s ∈ call.saved memos,
      call.Measures limit memos s := by
    intro call made memos
    refine Call.measures_saved (Nat.le_of_eq (limits call made)) ?_ (writes call made)
    intro reads text nodes read
    exact nodes.toMarkdownBy_of_read (faithful text) (follows call made reads text nodes read) build
  have empty : (afterAll []).Accounted limit [] := fun m member => by cases member
  intro s reached
  exact accounted_states empty measured s reached

end Histories

/-- A history whose only renaming is to a shorter path: every text is within the limit. -/
theorem within_limit_or_overrun_shorter :
    let c : Circumstances :=
      { user := 1, settings := { contentLimit := 3 }, freshId := .ofNat 1, now := default,
        parser := .always fun text => Forest.ofEvents text (plainEvents text) }
    let calls : List Call :=
      [⟨c, .createMemo "#ab" none⟩,
        ⟨c, .renameMemoTag "memos/00000000000000000000000000000001" "ab" "c"⟩]
    (∀ text ∈ ["#ab", "#c"], plainEvents text = Markdown.events text) ∧
      (states [] calls).map texts =
        [[], [(.ofNat 1, "#ab")], [(.ofNat 1, "#ab")], [(.ofNat 1, "#c")], [(.ofNat 1, "#c")]] ∧
      ∀ s ∈ states [] calls, ∀ m ∈ s, m.content.length ≤ 3 := by
  intro c calls
  have same : ∀ call ∈ calls, call.circumstances = c := by
    simp [calls]
  have limits : ∀ call ∈ calls, call.circumstances.settings.contentLimit = 3 :=
    fun call made => by rw [same call made]
  have follows : ∀ call ∈ calls, call.circumstances.parser.Follows fun text =>
      Forest.ofEvents text (plainEvents text) := by
    intro call made
    rw [same call made]
    exact fun _ _ _ read => read
  have writes : ∀ call ∈ calls, ∀ nodes text, call.circumstances.writer nodes = some text →
      text = nodes.toMarkdown := by
    intro call made nodes text written
    rw [same call made] at written
    exact (Option.some.inj written).symm
  have keeps : ∀ call ∈ calls, ¬ call.request.Lengthens := by
    intro call made lengthens
    simp only [calls, List.mem_cons, List.not_mem_nil, or_false] at made
    rcases made with rfl | rfl
    · cases lengthens
    · obtain ⟨old, new, accepted, accepted', longer⟩ : ∃ old new,
          TagPath.validate "ab" = .ok old ∧ TagPath.validate "c" = .ok new ∧
            old.length < new.length := by
        cases lengthens with
        | inOneMemo accepted accepted' longer => exact ⟨_, _, accepted, accepted', longer⟩
      have old' : TagPath.validate "ab" = .ok "/ab" := by decide +kernel
      have new' : TagPath.validate "c" = .ok "/c" := by decide +kernel
      obtain rfl := Except.ok.inj (old'.symm.trans accepted)
      obtain rfl := Except.ok.inj (new'.symm.trans accepted')
      exact absurd longer (by decide)
  refine ⟨by decide +kernel, by decide +kernel, fun s reached m member => ?_⟩
  rcases within_limit_or_overrun limits plainEvents_faithful follows writes s reached m member with
    short | ⟨earlier, call, later, whole, overruns⟩
  · exact short
  · exact absurd overruns.lengthens (keeps call (by simp [whole]))

/-- A renaming to a longer path is not measured, neither in every memo nor in one. -/
theorem renaming_exceeds_limit :
    let c : Circumstances :=
      { user := 1, settings := { contentLimit := 2 }, freshId := .ofNat 1, now := default }
    ∀ request ∈ [Request.renameTag "a" "bb" false,
        .renameMemoTag "memos/00000000000000000000000000000001" "a" "bb"],
      ∃ s ∈ states [] [⟨c, .createMemo "#a" none⟩, ⟨c, request⟩], ∃ m ∈ s,
        2 < m.content.length := by
  decide +kernel

end TaggedMemos
