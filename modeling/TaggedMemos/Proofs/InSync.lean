import Mathlib.Data.List.Nodup
import TaggedMemos.Proofs.Revision

/-!
# Memos in Sync with Their Texts

A memo is in sync when its text can be read and the payload recorded with it is that of the
forest read. Whatever a request stores comes from a text that was read for it, with one
exception: the edits of a tag in a single memo store the payload of the edited forest, and
nobody reads the text written from it. So all other requests keep every memo in sync, in every
state between their saves as well, however they end.

A rebuild takes the texts from pages it has listed before and stores the payloads under the
identifiers of their memos. That is where distinct identifiers are needed: two memos of one
identifier exchange their payloads (`rebuild_mixes_up_twins`).

## Main results

* `Write`: what one save can do to a collection.
* `saves_write`: every request but the edits of a single memo saves only by `Write`.
* `inSync_of_mem_states`: every memo is in sync in every state of a history.
-/

namespace TaggedMemos

/-- A payload fits a text when the text is accepted and the payload is that of its forest. -/
def Fits (parse : String → Except ParseError Forest) (text : String) (payload : Payload) : Prop :=
  (parse text).toOption.map Forest.payload = some payload

instance (parse : String → Except ParseError Forest) (text : String) (payload : Payload) :
    Decidable (Fits parse text payload) :=
  inferInstanceAs (Decidable (_ = _))

/-- A memo whose recorded payload is that of its text. -/
def Memo.InSync (parse : String → Except ParseError Forest) (m : Memo) : Prop :=
  Fits parse m.content m.payload

instance (parse : String → Except ParseError Forest) (m : Memo) : Decidable (m.InSync parse) :=
  inferInstanceAs (Decidable (Fits _ _ _))

/-- A payload fits a text if the text is parsed, and has it. -/
theorem fits_iff {parse : String → Except ParseError Forest} {text : String} {payload : Payload} :
    Fits parse text payload ↔ ∃ nodes, parse text = .ok nodes ∧ payload = nodes.payload := by
  rw [Fits]
  cases parse text with
  | error _ => simp [Except.toOption]
  | ok nodes => simp [Except.toOption, eq_comm]

/-- A parser that follows `parse` where it succeeds. It may fail at any text and at any time. -/
def Parser.Follows (parser : Parser) (parse : String → Except ParseError Forest) : Prop :=
  ∀ reads text nodes, parser reads text = .ok nodes → parse text = .ok nodes

/-- The parser of markdown follows itself, and does so while it works. -/
theorem Parser.markdown_follows : Parser.markdown.Follows Forest.ofMarkdown :=
  fun _ _ _ accepted => accepted

/-- A parser that gives out follows what it followed before. -/
theorem Parser.Follows.failingAfter {parser : Parser} {parse : String → Except ParseError Forest}
    (follows : parser.Follows parse) (n : Nat) : (parser.failingAfter n).Follows parse := by
  intro reads text nodes accepted
  by_cases working : reads < n
  · exact follows reads text nodes (by simpa [Parser.failingAfter, working] using accepted)
  · simp [Parser.failingAfter, working] at accepted

/-! ### What one save can do -/

/-- What one save can do to a collection where only payloads that fit may be stored with a text.
-/
inductive Write (fits : String → Payload → Prop) : Collection → Collection → Prop
  /-- A memo with an identifier that is not in use is added at the end. -/
  | add {memos : Collection} {m : Memo} (fresh : memos.hasId m.id = false)
      (fit : fits m.content m.payload) : Write fits memos (memos ++ [m])
  /-- A memo gets a new text together with its payload. -/
  | rewrite {memos : Collection} {id : MemoId} {text : String} {payload : Payload}
      {now : Timestamp} (fit : fits text payload) :
      Write fits memos
        (memos.modify id (Change.apply { content := some text, payload := some payload } now))
  /-- A memo gets a new payload for the text it has. -/
  | refresh {memos : Collection} {id : MemoId} {payload : Payload} {now : Timestamp}
      (fit : ∀ m, memos.find? id = some m → fits m.content payload) :
      Write fits memos (memos.modify id (Change.apply { payload := some payload } now))
  /-- A memo is removed together with the comments on it. -/
  | remove {memos : Collection} {id : MemoId} : Write fits memos (memos.without id)

namespace Write

variable {fits : String → Payload → Prop} {memos memos' : Collection}

/-- Payloads that fit their texts before a save do so after it. -/
theorem forall_fits (write : Write fits memos memos')
    (before : ∀ m ∈ memos, fits m.content m.payload) : ∀ m ∈ memos', fits m.content m.payload := by
  intro m member
  cases write with
  | add _ fit =>
      rcases List.mem_append.mp member with old | new
      · exact before m old
      · rw [List.mem_singleton.mp new]
        exact fit
  | rewrite fit =>
      rcases Collection.mem_modify member with old | ⟨m₀, -, rfl⟩
      · exact before m old
      · exact fit
  | refresh fit =>
      rcases Collection.mem_modify member with old | ⟨m₀, found, rfl⟩
      · exact before m old
      · exact fit m₀ found
  | remove => exact before m (List.mem_filter.mp member).1

/-- Identifiers that are distinct before a save are so after it. -/
theorem nodup_ids (write : Write fits memos memos') (before : (Collection.ids memos).Nodup) :
    (Collection.ids memos').Nodup := by
  cases write with
  | add fresh _ => exact Collection.nodup_ids_append before fresh
  | rewrite _ =>
      rw [Collection.ids_modify]
      exact before
  | refresh _ =>
      rw [Collection.ids_modify]
      exact before
  | remove => exact Collection.nodup_ids_without before

end Write

/-! ### Histories -/

/-- Every request but the edits of a single memo saves only by `Write`. A rebuild stores the payload
of a text under the identifier that the text had when the call began, and needs distinct identifiers
for that. -/
theorem saves_write {fits : String → Payload → Prop} {c : Circumstances}
    (reads : ∀ n text nodes, c.parser n text = .ok nodes → fits text nodes.payload)
    {request : Request} (other : request.editsOneMemo = false) :
    Action.Saves c (Write fits)
      (fun s => request = .rebuildPayloads → (Collection.ids s).Nodup) request.perform
      (fun _ _ => True) := by
  have fit : ∀ {text payload}, c.Reads text payload → fits text payload := by
    rintro text _ ⟨n, nodes, accepted, rfl⟩
    exact reads n text nodes accepted
  refine saves_of_revisions fun start distinct trail linked => ?_
  -- A rebuild changes no text, so the texts stored are those that it began with.
  refine linked.relink
    (I := fun s => request = .rebuildPayloads → s.texts = start.texts) (fun _ => rfl) ?_
  intro s s' unchanged revision
  cases revision with
  | add creates _ _ fresh _ read =>
      exact ⟨.add fresh (fit read), by rintro rfl; cases creates⟩
  | rewrite rewrites _ _ read =>
      exact ⟨.rewrite (fit read), by rintro rfl; cases rewrites⟩
  | retag edits _ _ => exact absurd (edits.symm.trans other) (by decide)
  | @refresh _ id text payload _ rebuilds known read =>
      refine ⟨.refresh fun m found => ?_, fun _ => ?_⟩
      · obtain ⟨member, named⟩ := Collection.find?_eq_some found
        have known' : (m.id, m.content) ∈ start.texts :=
          unchanged rebuilds ▸ List.mem_map_of_mem member
        have keys : (start.texts.map Prod.fst).Nodup :=
          Collection.map_fst_texts start ▸ distinct rebuilds
        have same : m.content = text :=
          congrArg Prod.snd (List.inj_on_of_nodup_map keys known' known named)
        rw [same]
        exact fit read
      · rw [Collection.texts_modify]
        exact unchanged rebuilds
  | remove removes _ _ _ => exact ⟨.remove, by rintro rfl; cases removes⟩

/-- **Memos stay in sync.** In a history without edits of single memos, under parsers that may
fail at any time but otherwise follow one, every memo is in sync in every state, if every memo is
so at the beginning. Identifiers have to be distinct only for a rebuild. -/
theorem inSync_of_mem_states {parse : String → Except ParseError Forest} {memos : Collection}
    {calls : List Call}
    (follows : ∀ call ∈ calls, call.circumstances.parser.Follows parse)
    (other : ∀ call ∈ calls, call.request.editsOneMemo = false)
    (distinct : (Collection.ids memos).Nodup ∨ ∀ call ∈ calls, call.request ≠ .rebuildPayloads)
    (initial : ∀ m ∈ memos, m.InSync parse) :
    ∀ s ∈ states memos calls, ∀ m ∈ s, m.InSync parse := by
  -- Distinctness is carried along only where a rebuild may need it.
  let invariant := fun s : Collection => (∀ m ∈ s, m.InSync parse) ∧
    ((Collection.ids s).Nodup ∨ ∀ call ∈ calls, call.request ≠ .rebuildPayloads)
  suffices every : ∀ s ∈ states memos calls, invariant s from fun s hs => (every s hs).1
  refine states_induction ?_ ⟨initial, distinct⟩
  rintro call member s ⟨inSync, distinct⟩
  have reads : ∀ n text nodes, call.circumstances.parser n text = .ok nodes →
      Fits parse text nodes.payload := fun n text nodes accepted =>
    fits_iff.mpr ⟨nodes, follows call member n text nodes accepted, rfl⟩
  have linked : Linked (Write (Fits parse)) s (call.saved s) := by
    refine Call.linked_saved (saves_write reads (other call member)) fun rebuild => ?_
    exact distinct.resolve_right fun none => none call member rebuild
  refine linked.forall_mem ?_ ⟨inSync, distinct⟩
  rintro s s' ⟨inSync, distinct⟩ write
  exact ⟨write.forall_fits inSync, distinct.imp_left write.nodup_ids⟩

/-- A history of two callers: the first one writes two memos, the second one a comment that is
refused and a memo; a rename fails at its second save; a rebuild meets a parser that gives out,
and a deletion ends before its first memo because the caller gives up. -/
def sharedHistory : List Call :=
  let at' := fun (user : UserId) (n : Nat) =>
    ({ user, freshId := .ofNat n, now := default } : Circumstances)
  [⟨at' 1 1, .createMemo "a #work" none⟩,
    ⟨at' 1 2, .createMemo "#work #b" none⟩,
    ⟨at' 2 3, .createMemo "mine" (some (MemoName.ofId (.ofNat 1)))⟩,
    ⟨at' 2 3, .createMemo "#work/too" none⟩,
    ⟨{ at' 1 4 with saveFault := fun n => if n = 1 then some (.store .simulated) else none },
      .renameTag "work" "play" false⟩,
    ⟨{ at' 2 4 with parser := Parser.markdown.failingAfter 1 }, .rebuildPayloads⟩,
    ⟨{ at' 1 4 with cancelled := fun _ => true }, .deleteTag "work" .removeFromContent⟩]

/-- The first rename takes effect and the second one does not, and nothing is out of sync. -/
theorem inSync_of_mem_states_shared :
    (states [] sharedHistory).getLast?.map (·.map fun m => (m.content, m.payload.tags)) =
        some [("a #play", ["/play"]), ("#work #b", ["/work", "/b"]), ("#work/too", ["/work/too"])] ∧
      ∀ s ∈ states [] sharedHistory, ∀ m ∈ s, m.InSync Forest.ofMarkdown := by
  refine ⟨by decide +kernel, inSync_of_mem_states ?_ (by decide) (.inl (by decide)) (by decide)⟩
  simp only [sharedHistory, List.forall_mem_cons]
  have follows := Parser.markdown_follows
  exact ⟨follows, follows, follows, follows, follows, follows.failingAfter 1, follows, by simp⟩

/-! ### Two memos of one identifier -/

/-- Two memos with one identifier, each in sync. -/
def twins : Collection :=
  let twin := fun text tag =>
    ({ id := .ofNat 1, creator := 1, content := text, payload := { tags := [tag] },
       created := default, updated := default } : Memo)
  [twin "#a" "/a", twin "#b" "/b"]

/-- A rebuild of two memos of one identifier stores the payload of the second one with the text of
the first one. -/
theorem rebuild_mixes_up_twins :
    (∀ m ∈ twins, m.InSync Forest.ofMarkdown) ∧
      ¬ ∀ s ∈ states twins
          [⟨{ user := 1, freshId := .ofNat 2, now := default }, .rebuildPayloads⟩],
        ∀ m ∈ s, m.InSync Forest.ofMarkdown := by
  decide +kernel

end TaggedMemos
