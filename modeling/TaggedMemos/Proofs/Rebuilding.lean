import TaggedMemos.Proofs.Course
import TaggedMemos.Proofs.Origin
import TaggedMemos.Proofs.Revision

/-!
# Rebuilding in a Single Pass

A rebuild takes memos by their places in a list that it writes between one page and the next. It
writes a memo in its place, so every later page is found as it was when the rebuild began. The pages
together make up the list, and each memo comes once: a rebuild is a single pass over the store,
however large the pages are and whatever goes wrong.

In a pass each memo is treated under what the memos before it leave behind. That is how many texts
were read, one for each of them, and how many saves were tried, one for each text that was accepted.

## Main results

* `outcome_rebuildFrom`: page by page, a rebuild does what a single pass does.
* `outcome_rebuildPage`: what a pass does, memo by memo.
* `rebuild_is_one_pass`: what a rebuild leaves behind and what it counts.
-/

namespace TaggedMemos

open Collection

/-! ### Places in a collection -/

namespace Collection

variable {memos before rest : Collection} {id : MemoId} {change : Memo → Memo} {n : Nat}

/-- A change of a memo that is not stored changes nothing. -/
theorem modify_eq_self (unused : id ∉ ids memos) : memos.modify id change = memos := by
  induction memos with
  | nil => rfl
  | cons first rest ih =>
      simp only [ids, List.map_cons, List.mem_cons, not_or] at unused
      simp [modify, Ne.symm unused.1, ih unused.2]

/-- A change passes over the memos before the one that it is about. -/
theorem modify_append (unused : id ∉ ids before) :
    modify (before ++ rest) id change = before ++ rest.modify id change := by
  induction before with
  | nil => rfl
  | cons first before ih =>
      simp only [ids, List.map_cons, List.mem_cons, not_or] at unused
      simp [modify, Ne.symm unused.1, ih unused.2]

/-- A change leaves alone what comes after the memo that it is about. -/
theorem drop_modify (unused : id ∉ ids (memos.drop n)) :
    (memos.modify id change).drop n = memos.drop n := by
  induction memos generalizing n with
  | nil => rfl
  | cons first rest ih =>
      cases n with
      | zero => exact modify_eq_self unused
      | succ n =>
          by_cases same : first.id = id
          · simp [modify, same]
          · simpa [modify, same] using ih unused

end Collection

/-- A page is what is found at its places. -/
theorem Query.select_page (offset size : Nat) (memos : Collection) :
    (Query.page offset size).select memos = (memos.drop offset).take size := by
  have everything : memos.filter (Query.page offset size).admits = memos :=
    List.filter_eq_self.mpr fun m _ => by simp [Query.admits, Query.page]
  simp only [Query.select, everything]
  rfl

/-! ### Pages -/

section Pages

open TaggedMemos.Action Service

variable {c : Circumstances} {memos : Collection} {p q : Progress}
variable {report report' : RebuildReport}

/-- Two pages in a row are treated as one page. -/
theorem rebuildPage_append (report : RebuildReport) (page rest : List Memo) :
    rebuildPage report (page ++ rest) =
      rebuildPage report page >>= fun report => rebuildPage report rest := by
  induction page generalizing report with
  | nil => simp [rebuildPage]
  | cons m page ih => simp [rebuildPage, ih]

/-- Treating a page keeps all identifiers, and the memos from some place on that are not on it. -/
theorem keeps_rebuildPage {n : Nat} {page : List Memo}
    (apart : ∀ m ∈ page, m.id ∉ ids (memos.drop n)) (current : p.current = .ok memos)
    (treated : (rebuildPage report page).outcome c p = (.ok report', q)) :
    ∃ memos', q.current = .ok memos' ∧ ids memos' = ids memos ∧ memos'.drop n = memos.drop n := by
  let kept := fun s : Collection => ids s = ids memos ∧ s.drop n = memos.drop n
  have saves : Saves c (fun s s' => kept s → kept s') kept (rebuildPage report page)
      (fun _ => kept) := by
    refine .rebuildPage (fun _ _ holds related => related holds) page (fun m member => ?_) report
    have keeps : ∀ (payload : Payload) (s : Collection), kept s →
        ∀ now, kept (s.modify m.id (Change.apply { payload := some payload } now)) := by
      rintro payload s ⟨sameIds, sameRest⟩ now
      refine ⟨(ids_modify _ _).trans sameIds, ?_⟩
      rw [drop_modify (sameRest ▸ apart m member), sameRest]
    refine (Saves.payloadOf m.content).bind fun payload => ?_
    refine ((Saves.update fun s tries holds _ => ?_).imp_before fun _ h => h.2).imp_after ?_
    · exact fun holds => keeps payload s holds _
    · rintro _ _ ⟨s, _, holds, -, rfl⟩
      exact keeps payload s holds _
  obtain ⟨trail, saved, stored, -, value⟩ := saves p memos current ⟨rfl, rfl⟩
  rw [treated] at saved stored value
  exact ⟨_, current_of_saved current stored saved, value report' rfl⟩

/-- A page and the memos after it are the memos from its first place on. -/
theorem drop_eq_page_append {size offset : Nat} {page : List Memo}
    (listed : page = (memos.drop offset).take size) :
    memos.drop offset = page ++ memos.drop (offset + page.length) := by
  subst listed
  rcases Nat.le_total size (memos.drop offset).length with full | short
  · rw [List.length_take_of_le full, ← List.drop_drop, List.take_append_drop]
  · rw [List.take_of_length_le short, ← List.drop_drop, List.drop_length, List.append_nil]

/-- The memos of a page are not among those after it. -/
theorem apart_of_page {offset : Nat} {page later : List Memo} (distinct : (ids memos).Nodup)
    (split : memos.drop offset = page ++ later) : ∀ m ∈ page, m.id ∉ ids later := by
  have distinct' : (ids (page ++ later)).Nodup :=
    split ▸ distinct.sublist ((List.drop_sublist _ _).map _)
  rw [ids, List.map_append, List.nodup_append] at distinct'
  exact fun m member known => distinct'.2.2 _ (List.mem_map_of_mem member) _ known rfl

/-- **Page by page, a rebuild does what a single pass does**, whatever fails and whenever the caller
gives up. The pages do not run out before the memos do. -/
theorem outcome_rebuildFrom {size pages offset : Nat} (positive : 0 < size)
    (enough : memos.length < offset + pages) (distinct : (ids memos).Nodup)
    (current : p.current = .ok memos) :
    (rebuildFrom size pages offset report).outcome c p =
      (rebuildPage report (memos.drop offset)).outcome c p := by
  -- The induction is on the pages. The store changes on the way, so it is any with its identifiers.
  induction pages generalizing offset report memos p with
  | zero =>
      rw [List.drop_eq_nil_of_le (by omega)]
      rfl
  | succ pages ih =>
      obtain ⟨page, listed⟩ : ∃ page, page = (memos.drop offset).take size := ⟨_, rfl⟩
      have width : page.length = min size (memos.length - offset) := by simp [listed]
      have split := drop_eq_page_append listed
      rw [rebuildFrom, split, rebuildPage_append, outcome_bind, outcome_bind]
      simp only [Store.list, outcome_bind, outcome_load, current, outcome_pure, Query.select_page,
        ← listed]
      rcases treated : (rebuildPage report page).outcome c p with ⟨fault | report', q⟩
      · rfl
      · by_cases last : page.length < size
        · have exhausted : memos.length ≤ offset + page.length := by omega
          simp only [last, if_true, List.drop_eq_nil_of_le exhausted]
          rfl
        · obtain ⟨memos', current', sameIds, sameRest⟩ :=
            keeps_rebuildPage (apart_of_page distinct split) current treated
          have sameLength : memos'.length = memos.length := by
            simpa [ids] using congrArg List.length sameIds
          simp only [last, if_false, ← sameRest]
          exact ih (by omega) (sameIds ▸ distinct) current'

end Pages

/-! ### A single pass -/

/-- What a rebuild comes to for a memo when some texts were read and some saves were tried before:
the payload read from its text, or the fault that leaves the memo as it was. -/
def renewal (c : Circumstances) (reads tries : Nat) (m : Memo) : Except Fault Payload :=
  match c.parser reads m.content, c.saveFault tries with
  | .error reason, _ => .error (.parse reason)
  | .ok _, some fault => .error fault
  | .ok nodes, none => .ok nodes.payload

/-- What a rebuild comes to for memos in a row. A save is tried for each text that is accepted. -/
def renewals (c : Circumstances) (reads tries : Nat) : List Memo → List (Except Fault Payload)
  | [] => []
  | m :: rest =>
    renewal c reads tries m ::
      renewals c (reads + 1) (tries + (c.parser reads m.content).isOk.toNat) rest

/-- What a memo is after a rebuild. -/
def Memo.renewed (now : Timestamp) (m : Memo) : Except Fault Payload → Memo
  | .ok payload => { m with payload, updated := now }
  | .error _ => m

/-- A rebuild changes a memo in nothing but its payload and the time of writing. -/
@[simp] theorem Memo.id_renewed (now : Timestamp) (m : Memo) (result : Except Fault Payload) :
    (m.renewed now result).id = m.id := by
  cases result <;> rfl

/-- A memo that is renewed keeps its text. -/
@[simp] theorem Memo.content_renewed (now : Timestamp) (m : Memo) (result : Except Fault Payload) :
    (m.renewed now result).content = m.content := by
  cases result <;> rfl

/-- A memo that is renewed keeps its origin. -/
@[simp] theorem Memo.origin_renewed (now : Timestamp) (m : Memo) (result : Except Fault Payload) :
    (m.renewed now result).origin = m.origin := by
  cases result <;> rfl

/-- What memos in a row are after a rebuild. The time of writing is that of the save. -/
def rebuilt (c : Circumstances) (reads tries : Nat) : List Memo → List Memo
  | [] => []
  | m :: rest =>
    m.renewed (c.now tries) (renewal c reads tries m) ::
      rebuilt c (reads + 1) (tries + (c.parser reads m.content).isOk.toNat) rest

/-- A report with some more memos counted. -/
def Service.RebuildReport.counting (report : Service.RebuildReport)
    (results : List (Except Fault Payload)) : Service.RebuildReport where
  processed := report.processed + results.length
  succeeded := report.succeeded + results.countP (·.isOk)
  failed := report.failed + results.countP (!·.isOk)

/-- Memos may be counted in two parts. -/
theorem Service.RebuildReport.counting_append (report : Service.RebuildReport)
    (first second : List (Except Fault Payload)) :
    report.counting (first ++ second) = (report.counting first).counting second := by
  simp [counting, Nat.add_assoc]

section Pass

open TaggedMemos.Action Service

variable {c : Circumstances} {memos before rest : Collection} {m : Memo} {p q : Progress}
variable {report : RebuildReport}

/-- Treating a memo comes to its renewal, and leaves the memos around it alone. -/
theorem outcome_rebuildMemo (first : m.id ∉ ids before)
    (current : p.current = .ok (before ++ m :: rest)) :
    ∃ q, (rebuildMemo m).outcome c p = ((renewal c p.reads p.tries m).map fun _ => (), q) ∧
      q.current =
        .ok (before ++ m.renewed (c.now p.tries) (renewal c p.reads p.tries m) :: rest) ∧
      q.reads = p.reads + 1 ∧
      q.tries = p.tries + (c.parser p.reads m.content).isOk.toNat := by
  cases read : c.parser p.reads m.content with
  | error reason =>
      refine ⟨{ p with reads := p.reads + 1 }, ?_, ?_, rfl, rfl⟩
      · simp [rebuildMemo, payloadOf, outcome_bind, outcome_parse, read, renewal, Except.map]
      · simp only [renewal, read, Memo.renewed]
        exact current
  | ok nodes =>
      have known : hasId (before ++ m :: rest) m.id = true :=
        hasId_iff.mpr (by simp [ids])
      have written : (rebuildMemo m).outcome c p =
          (save (before ++ m.renewed (c.now p.tries) (.ok nodes.payload) :: rest)).outcome c
            { p with reads := p.reads + 1 } := by
        rw [rebuildMemo, outcome_bind, payloadOf, outcome_bind, outcome_parse, read]
        simp only [mapError_ok, outcome_pure]
        rw [Treatment.outcome_update (p := { p with reads := p.reads + 1 }) current known,
          modify_append first]
        simp [Collection.modify, Change.apply, Memo.renewed, Progress.tries]
      simp only [Progress.tries]
      cases refused : c.saveFault (p.saved.length + p.refused) with
      | some fault =>
          refine ⟨{ p with reads := p.reads + 1, refused := p.refused + 1 }, ?_, ?_, rfl, rfl⟩
          · rw [written, outcome_save]
            simp [renewal, read, refused, Except.map]
          · simp only [renewal, read, refused, Memo.renewed]
            exact current
      | none =>
          refine ⟨{ p with
            reads := p.reads + 1
            saved := (before ++ m.renewed (c.now p.tries) (.ok nodes.payload) :: rest) ::
              p.saved },
            ?_, ?_, rfl, ?_⟩
          · rw [written, outcome_save]
            simp [renewal, read, refused, Except.map]
          · simp [Progress.current, Progress.tries, renewal, read, refused]
          · simp [Except.isOk, Except.toBool, Nat.add_right_comm]

/-- A memo is counted by what treating it comes to. A fault is noted, and the pass goes on. -/
theorem outcome_rebuildPage_cons {result : Except Fault Payload} (report : RebuildReport)
    (rest : List Memo) (active : c.cancelled p.saved.length = false)
    (treated : (rebuildMemo m).outcome c p = (result.map fun _ => (), q)) :
    ∃ log, (rebuildPage report (m :: rest)).outcome c p =
      (rebuildPage (report.counting [result]) rest).outcome c { q with log } := by
  rw [rebuildPage, outcome_bind, outcome_ensureActive, active]
  simp only [Bool.false_eq_true, if_false, outcome_bind, outcome_tryCatch, treated]
  cases result with
  | ok payload => exact ⟨q.log, rfl⟩
  | error fault => exact ⟨_, rfl⟩

/-- **What a pass does.** Each memo comes to its renewal and is counted. The memos before these ones
have been treated, and are left alone. -/
theorem outcome_rebuildPage (report : RebuildReport) (distinct : (ids (before ++ rest)).Nodup)
    (active : ∀ n, c.cancelled n = false) (current : p.current = .ok (before ++ rest)) :
    ∃ q, (rebuildPage report rest).outcome c p =
        (.ok (report.counting (renewals c p.reads p.tries rest)), q) ∧
      q.current = .ok (before ++ rebuilt c p.reads p.tries rest) ∧
      q.reads = p.reads + rest.length := by
  -- The induction is on the memos left: the first of them moves over to those treated.
  induction rest generalizing before p report with
  | nil => exact ⟨p, rfl, current, rfl⟩
  | cons m rest ih =>
      have first : m.id ∉ ids before := by
        rw [ids, List.map_append, List.nodup_append] at distinct
        exact fun early => distinct.2.2 _ early _ (by simp) rfl
      obtain ⟨q, treated, current', reads, tries⟩ := outcome_rebuildMemo (c := c) first current
      obtain ⟨log, further⟩ := outcome_rebuildPage_cons report rest (active _) treated
      let result := renewal c p.reads p.tries m
      have distinct' : (ids (before ++ [m.renewed (c.now p.tries) result] ++ rest)).Nodup := by
        simpa [ids] using distinct
      have shifted : Progress.current { q with log } =
          .ok (before ++ [m.renewed (c.now p.tries) result] ++ rest) := by
        simpa [result, Progress.current] using current'
      obtain ⟨q', passed, last, reads'⟩ := ih (report.counting [result]) distinct' shifted
      have later : renewals c p.reads p.tries (m :: rest) =
          result :: renewals c q.reads q.tries rest := by
        rw [renewals, reads, tries]
      have later' : rebuilt c p.reads p.tries (m :: rest) =
          m.renewed (c.now p.tries) result :: rebuilt c q.reads q.tries rest := by
        rw [rebuilt, reads, tries]
      rw [later, later']
      refine ⟨q', ?_, ?_, ?_⟩
      · rw [further, passed, ← RebuildReport.counting_append]
        rfl
      · rw [last, List.append_assoc]
        rfl
      · rw [reads', List.length_cons]
        exact (congrArg (· + rest.length) reads).trans (Nat.add_right_comm ..)

end Pass

/-! ### Settings -/

section Settings

open TaggedMemos.Action Service

variable {α β : Type}

/-- An action does the same under any settings. -/
def Action.IgnoresSettings (x : Action α) : Prop :=
  ∀ c p settings, x.outcome { c with settings } p = x.outcome c p

/-- Actions that ignore the settings do so one after the other. -/
theorem Action.IgnoresSettings.bind {x : Action α} {f : α → Action β}
    (first : x.IgnoresSettings) (second : ∀ a, (f a).IgnoresSettings) :
    (x >>= f).IgnoresSettings := by
  intro c p settings
  rw [outcome_bind, outcome_bind, first c p settings]
  rcases x.outcome c p with ⟨_ | a, q⟩
  · rfl
  · exact second a c q settings

/-- An action that ignores the settings does so if its faults are handled in the same way. -/
theorem Action.IgnoresSettings.tryCatch {x : Action α} {handle : Fault → Action α}
    (first : x.IgnoresSettings) (second : ∀ fault, (handle fault).IgnoresSettings) :
    (tryCatch x handle).IgnoresSettings := by
  intro c p settings
  rw [outcome_tryCatch, outcome_tryCatch, first c p settings]
  rcases x.outcome c p with ⟨fault | _, q⟩
  · exact second fault c q settings
  · rfl

/-- A memo is rebuilt alike under any settings. -/
theorem rebuildMemo_ignoresSettings (m : Memo) : (rebuildMemo m).IgnoresSettings := by
  refine .bind (.bind (fun c p _ => ?_) fun _ _ _ _ => rfl) fun payload => ?_
  · rw [outcome_parse, outcome_parse]
  · refine .bind (fun c p _ => by rw [outcome_load, outcome_load]) fun memos => ?_
    by_cases known : memos.hasId m.id = true
    · simp only [known, if_true]
      intro c p settings
      rw [outcome_bind, outcome_bind, outcome_clock, outcome_clock]
      simp only [outcome_save]
    · simp only [known]
      exact fun _ _ _ => rfl

/-- The size of the pages is all that a rebuild takes from the settings. -/
theorem rebuildPage_ignoresSettings (report : RebuildReport) (page : List Memo) :
    (rebuildPage report page).IgnoresSettings := by
  induction page generalizing report with
  | nil => exact fun _ _ _ => rfl
  | cons m rest ih =>
      refine .bind (fun c p _ => by rw [outcome_ensureActive, outcome_ensureActive]) fun _ => ?_
      refine .bind (.tryCatch ?_ fun fault => ?_) fun report => ih report
      · exact (rebuildMemo_ignoresSettings m).bind fun _ _ _ _ => rfl
      · exact fun _ _ _ => rfl

/-- A rebuild of some memos in one go. -/
def rebuildAtOnce (memos : List Memo) : Action RebuildReport := do
  let report ← rebuildPage {} memos
  note (.payloadsRebuilt report.processed report.succeeded report.failed)
  return report

/-- So are many memos. -/
theorem rebuildAtOnce_ignoresSettings (memos : List Memo) :
    (rebuildAtOnce memos).IgnoresSettings :=
  (rebuildPage_ignoresSettings {} memos).bind fun _ _ _ _ => rfl

end Settings

/-! ### Whole rebuilds -/

section Renewals

variable {c : Circumstances} {parse : String → Except ParseError Forest} {memos : List Memo}
variable {reads tries : Nat}

/-- Every memo has one renewal. -/
@[simp] theorem length_renewals : (renewals c reads tries memos).length = memos.length := by
  induction memos generalizing reads tries with
  | nil => rfl
  | cons m rest ih => rw [renewals, List.length_cons, ih, List.length_cons]

/-- A parser that does not depend on what was read before gives the same renewal later. -/
theorem renewal_always (constant : c.parser = .always parse) :
    renewal c (reads + 1) = renewal c reads := by
  funext tries m
  simp only [renewal, constant, Parser.always]

/-- With such a parser the renewal of a memo depends on the memos before it by the number of texts
accepted. -/
theorem getElem?_renewals (constant : c.parser = .always parse) (reads tries : Nat)
    (memos : List Memo) (n : Nat) :
    (renewals c reads tries memos)[n]? = memos[n]?.map
      (renewal c reads (tries + (memos.take n).countP fun m => (parse m.content).isOk)) := by
  induction memos generalizing reads tries n with
  | nil => rfl
  | cons m rest ih =>
      cases n with
      | zero => rfl
      | succ n =>
          rw [renewals, List.getElem?_cons_succ, ih, renewal_always constant,
            List.getElem?_cons_succ, List.take_succ_cons, List.countP_cons, constant]
          cases accepted : (parse m.content).isOk with
          | true => simp [Parser.always, accepted, Nat.add_assoc, Nat.add_comm 1]
          | false => simp [Parser.always, accepted]

/-- What a rebuild leaves at each place, with such a parser. -/
theorem getElem?_rebuilt (constant : c.parser = .always parse) (reads tries : Nat)
    (memos : List Memo) (n : Nat) :
    let tries' := tries + (memos.take n).countP fun m => (parse m.content).isOk
    (rebuilt c reads tries memos)[n]? = memos[n]?.map fun m =>
      m.renewed (c.now tries') (renewal c reads tries' m) := by
  induction memos generalizing reads tries n with
  | nil => rfl
  | cons m rest ih =>
      cases n with
      | zero => rfl
      | succ n =>
          rw [rebuilt, List.getElem?_cons_succ, ih, renewal_always constant,
            List.getElem?_cons_succ, List.take_succ_cons, List.countP_cons, constant]
          cases accepted : (parse m.content).isOk with
          | true => simp [Parser.always, accepted, Nat.add_assoc, Nat.add_comm 1]
          | false => simp [Parser.always, accepted]

/-- What a rebuild leaves alone in each memo it leaves alone in all of them. -/
theorem map_rebuilt {α : Type} {view : Memo → α}
    (kept : ∀ now m result, view (Memo.renewed now m result) = view m) :
    (rebuilt c reads tries memos).map view = memos.map view := by
  induction memos generalizing reads tries with
  | nil => rfl
  | cons m rest ih => rw [rebuilt, List.map_cons, List.map_cons, kept, ih]

/-- A renewal gives the payload of the text, if this is accepted and the save is not refused. -/
theorem renewal_cases (constant : c.parser = .always parse) (reads tries : Nat) (m : Memo) :
    (∃ nodes, parse m.content = .ok nodes ∧ c.saveFault tries = none ∧
        renewal c reads tries m = .ok nodes.payload) ∨
      ((∀ nodes, parse m.content = .ok nodes → c.saveFault tries ≠ none) ∧
        ∃ fault, renewal c reads tries m = .error fault) := by
  cases read : parse m.content with
  | error reason =>
      exact .inr ⟨by simp, .parse reason, by simp [renewal, constant, Parser.always, read]⟩
  | ok nodes =>
      cases refused : c.saveFault tries with
      | none =>
          exact .inl ⟨nodes, rfl, rfl, by simp [renewal, constant, Parser.always, read, refused]⟩
      | some fault =>
          exact .inr ⟨by simp, fault, by simp [renewal, constant, Parser.always, read, refused]⟩

/-- A renewal after one that no save was refused in gives no other payload. -/
theorem payload_renewed_again {c' : Circumstances} (constant : c.parser = .always parse)
    (constant' : c'.parser = .always parse) (free : ∀ n, c.saveFault n = none)
    (reads tries reads' tries' : Nat) {m m' : Memo}
    {now now' : Timestamp} (once : m' = m.renewed now (renewal c reads tries m)) :
    (m'.renewed now' (renewal c' reads' tries' m')).payload = m'.payload := by
  have same : m'.content = m.content := by simp [once]
  rcases renewal_cases constant' reads' tries' m' with ⟨nodes, read, -, again⟩ | ⟨-, fault, again⟩
  · rcases renewal_cases constant reads tries m with ⟨nodes', read', -, first⟩ | ⟨failed, -⟩
    · obtain rfl : nodes = nodes' := Except.ok.inj (read.symm.trans (same ▸ read'))
      rw [again, once, first]
      rfl
    · exact absurd (free tries) (failed nodes (same ▸ read))
  · rw [again]
    rfl

end Renewals

section Rebuild

open TaggedMemos.Action Service

variable {c : Circumstances} {memos : Collection} {p : Progress}

/-- A rebuild comes to the same as one in one go. -/
theorem outcome_rebuildPayloads (distinct : (ids memos).Nodup) (current : p.current = .ok memos) :
    rebuildPayloads.outcome c p = (rebuildAtOnce memos).outcome c p := by
  rw [rebuildPayloads, outcome_bind, outcome_read]
  simp only [outcome_bind, outcome_load, current, rebuildAtOnce]
  rw [outcome_rebuildFrom (by omega) (by omega) distinct current, List.drop_zero]

/-- What a rebuild answers and leaves behind. -/
theorem Call.rebuild_outcome (distinct : (ids memos).Nodup) (active : ∀ n, c.cancelled n = false) :
    (Call.outcome ⟨c, .rebuildPayloads⟩ memos).1 =
        .ok (.rebuilt (RebuildReport.counting {} (renewals c 0 0 memos))) ∧
      (Call.outcome ⟨c, .rebuildPayloads⟩ memos).2.reads = memos.length ∧
      Call.after ⟨c, .rebuildPayloads⟩ memos = rebuilt c 0 0 memos := by
  have current := Call.current_outcome ⟨c, .rebuildPayloads⟩ memos
  have whole : (ids ([] ++ memos)).Nodup := distinct
  have stored : Progress.current { stored := .ok memos } = .ok ([] ++ memos) := rfl
  obtain ⟨q, passed, last, reads⟩ := outcome_rebuildPage {} whole active stored
  obtain ⟨log, ended⟩ : ∃ log, Call.outcome ⟨c, .rebuildPayloads⟩ memos =
      (.ok (.rebuilt (RebuildReport.counting {} (renewals c 0 0 memos))), { q with log }) := by
    rw [Call.outcome, Request.perform, outcome_bind, outcome_rebuildPayloads distinct rfl,
      rebuildAtOnce, outcome_bind, passed]
    exact ⟨_, rfl⟩
  rw [ended] at current ⊢
  refine ⟨rfl, by simpa using reads, ?_⟩
  exact Except.ok.inj (current.symm.trans last)

/-- What a rebuild leaves behind at each place. -/
theorem Call.getElem?_rebuild {parse : String → Except ParseError Forest}
    (distinct : (ids memos).Nodup) (constant : c.parser = .always parse)
    (active : ∀ n, c.cancelled n = false) (n : Nat) :
    let tries := (memos.take n).countP fun m => (parse m.content).isOk
    (Call.after ⟨c, .rebuildPayloads⟩ memos)[n]? = memos[n]?.map fun m =>
      m.renewed (c.now tries) (renewal c 0 tries m) := by
  obtain ⟨-, -, after⟩ := Call.rebuild_outcome distinct active
  rw [after, getElem?_rebuilt constant, Nat.zero_add]

/-- A rebuild of a store comes to the same under any settings. -/
theorem Call.rebuild_settings (distinct : (ids memos).Nodup) (settings : Settings) :
    Call.outcome ⟨{ c with settings }, .rebuildPayloads⟩ memos =
      Call.outcome ⟨c, .rebuildPayloads⟩ memos := by
  simp only [Call.outcome, Request.perform, outcome_bind]
  rw [outcome_rebuildPayloads distinct rfl, outcome_rebuildPayloads distinct rfl,
    rebuildAtOnce_ignoresSettings memos c]
  rfl

/-- **A rebuild is a single pass**, whatever the size of the pages. It ends by itself, and each text
is read once. A memo is counted as succeeded if its text is accepted and the save is not refused,
which is tried after one save for each text accepted before, and then it has the payload of its
text. All other memos are counted as failed and are what they were. After a rebuild in which no save
is refused another one changes no payload. -/
theorem rebuild_is_one_pass {parse : String → Except ParseError Forest}
    (distinct : (ids memos).Nodup) (constant : c.parser = .always parse)
    (active : ∀ n, c.cancelled n = false) :
    let rebuild : Call := ⟨c, .rebuildPayloads⟩
    let accepted := fun m : Memo => (parse m.content).isOk
    (∀ pages, memos.length < pages →
      (rebuildFrom (max 1 c.settings.rebuildBatch) pages 0 {}).outcome c { stored := .ok memos } =
        (rebuildPage {} memos).outcome c { stored := .ok memos }) ∧
    (∃ results : List (Except Fault Payload), results.length = memos.length ∧
      (∃ report, (rebuild.outcome memos).1 = .ok (.rebuilt report) ∧
        report.processed = memos.length ∧
        report.succeeded = results.countP (·.isOk) ∧
        report.failed = results.countP (!·.isOk) ∧
        report.processed = report.succeeded + report.failed) ∧
      (rebuild.outcome memos).2.reads = memos.length ∧
      ∀ n m, memos[n]? = some m →
        (∃ nodes, parse m.content = .ok nodes ∧
          c.saveFault ((memos.take n).countP accepted) = none ∧
          results[n]? = some (.ok nodes.payload) ∧
          (rebuild.after memos)[n]? =
            some { m with
              payload := nodes.payload
              updated := c.now ((memos.take n).countP accepted) }) ∨
        ((∀ nodes, parse m.content = .ok nodes →
            c.saveFault ((memos.take n).countP accepted) ≠ none) ∧
          (∃ fault, results[n]? = some (.error fault)) ∧
          (rebuild.after memos)[n]? = some m)) ∧
    ((rebuild.after memos).texts = memos.texts ∧
      (rebuild.after memos).origins = memos.origins) ∧
    (∀ settings, Call.outcome ⟨{ c with settings }, .rebuildPayloads⟩ memos =
      rebuild.outcome memos) ∧
    ((∀ n, c.saveFault n = none) → ∀ c' : Circumstances, c'.parser = .always parse →
      (∀ n, c'.cancelled n = false) →
      (Call.after ⟨c', .rebuildPayloads⟩ (rebuild.after memos)).map (·.payload) =
        (rebuild.after memos).map (·.payload)) := by
  intro rebuild accepted
  obtain ⟨answer, reads, after⟩ := Call.rebuild_outcome distinct active
  have length : (renewals c 0 0 memos).length = memos.length := length_renewals
  have texts : (rebuild.after memos).texts = memos.texts := by
    rw [after]
    exact map_rebuilt fun now m result => by simp
  have origins : (rebuild.after memos).origins = memos.origins := by
    rw [after]
    exact map_rebuilt fun now m result => by simp
  refine ⟨fun pages enough => ?_, ⟨renewals c 0 0 memos, length, ?_, reads, ?_⟩, ⟨texts, origins⟩,
    Call.rebuild_settings distinct, fun free c' constant' active' => ?_⟩
  · exact outcome_rebuildFrom (by omega) (by omega) distinct rfl
  · refine ⟨_, answer, by simp [RebuildReport.counting], by simp [RebuildReport.counting],
      by simp [RebuildReport.counting], ?_⟩
    simp only [RebuildReport.counting, Nat.zero_add]
    simpa using List.length_eq_countP_add_countP (l := renewals c 0 0 memos) (·.isOk)
  · intro n m found
    have result := getElem?_renewals constant 0 0 memos n
    rw [found, Option.map_some, Nat.zero_add] at result
    have stored := Call.getElem?_rebuild distinct constant active n
    simp only [found, Option.map_some] at stored
    rcases renewal_cases constant 0 ((memos.take n).countP accepted) m with
      ⟨nodes, read, free, renewed⟩ | ⟨failed, fault, kept⟩
    · rw [renewed] at stored result
      exact .inl ⟨nodes, read, free, result, stored⟩
    · rw [kept] at stored result
      exact .inr ⟨failed, ⟨fault, result⟩, stored⟩
  · have distinct' : (ids (rebuild.after memos)).Nodup := by
      rwa [← map_fst_texts, texts, map_fst_texts]
    refine List.ext_getElem? fun n => ?_
    rw [List.getElem?_map, List.getElem?_map, Call.getElem?_rebuild distinct' constant' active',
      Call.getElem?_rebuild distinct constant active]
    cases memos[n]? with
    | none => rfl
    | some m => exact congrArg some (payload_renewed_again constant constant' free _ _ _ _ rfl)

/-- A rebuild with pages of no memos, which are taken to be of one. The second text is not accepted,
and the save of the third memo is refused. -/
theorem rebuild_is_one_pass_mixed :
    let memo := fun (n : Nat) (user : UserId) (parent : Option MemoId) (text : String) =>
      ({ id := .ofNat n, creator := user, parent, content := text, created := default,
         updated := default } : Memo)
    let memos : Collection :=
      [memo 1 1 none "a", memo 2 1 none "", memo 3 2 none "b", memo 4 1 (some (.ofNat 1)) "c"]
    let parse : String → Except ParseError Forest := fun text =>
      if text = "" then .error (.unclosed 0) else .ok [.leaf (.tag text)]
    let c : Circumstances :=
      { user := 1, settings := { rebuildBatch := 0 }, parser := .always parse
        saveFault := fun n => if n = 1 then some (.store .simulated) else none
        freshId := default, now := default }
    (ids memos).Nodup ∧
      (Call.outcome ⟨c, .rebuildPayloads⟩ memos).1 =
        .ok (.rebuilt { processed := 4, succeeded := 2, failed := 2 }) ∧
      (Call.outcome ⟨c, .rebuildPayloads⟩ memos).2.reads = memos.length ∧
      (Call.after ⟨c, .rebuildPayloads⟩ memos).map (·.payload.tags) = [["/a"], [], [], ["/c"]] ∧
      ∀ settings, Call.outcome ⟨{ c with settings }, .rebuildPayloads⟩ memos =
        Call.outcome ⟨c, .rebuildPayloads⟩ memos := by
  intro memo memos parse c
  have distinct : (ids memos).Nodup := by decide
  have constant : c.parser = .always parse := rfl
  obtain ⟨-, ⟨_, -, -, reads, -⟩, -, settings, -⟩ :=
    rebuild_is_one_pass distinct constant fun _ => rfl
  exact ⟨distinct, by decide +kernel, reads, by decide +kernel, settings⟩

end Rebuild

end TaggedMemos
