import Mathlib.Data.Set.Card
import TaggedMemos.Proofs.FallibleStack
import TaggedMemos.Proofs.Scaffold

/-!
# Starts and Stops

A stop belongs to the last start before it that no other stop belongs to: to the start from which
the stream up to the stop is balanced. Whether a stream becomes a forest depends on nothing else.
Spans may lie outside of the text, end before they begin or cut a character in two.

The reason is that a stream has one of two forms (`leavesOpen_or_overclosed`). Either every stop in
it has its start, and then it consists of balanced parts with a start between each of them and the
next, and these starts are left open. Or it goes on from a balanced beginning with a stop, which is
the first one without a start. In the first form as many constructs are open after the stream as
starts are left, and in the second form only the forest itself is open where the stop comes.

## Main results

* `leavesOpen_or_overclosed`: the form of a stream.
* `Assembly.run_of_leavesOpen`, `Assembly.run_overclosed`: what reading does with each form.
* `isLeast_looseStops`, `ncard_looseStarts`: which stops have no start, and which starts no stop.
* `Assembly.outermost_of_run`: the forest itself is never closed.
* `read_exactly_if_matched`: when reading fails, and with which error.
-/

namespace TaggedMemos

open Text

variable {events before after rest more : List Located} {opening : Opening} {span : Span}
variable {m n i j : Nat}

/-! ### Which stop belongs to which start -/

/-- The start at one position of a stream and the stop at another one belong to each other: what
stands between them is balanced. -/
def Matched (events : List Located) (i j : Nat) : Prop :=
  ∃ before opening span inner span', IsConstruct events before opening span inner span' ∧
    i = before.length ∧ j = before.length + (inner.length + 1)

/-- The positions of the stops without a start. -/
def looseStops (events : List Located) : Set Nat :=
  {j | (∃ span, events[j]? = some ⟨.stop, span⟩) ∧ ¬ ∃ i, Matched events i j}

/-- The positions of the starts without a stop. -/
def looseStarts (events : List Located) : Set Nat :=
  {i | (∃ opening span, events[i]? = some ⟨.start opening, span⟩) ∧ ¬ ∃ j, Matched events i j}

/-! ### The form of a stream -/

/-- A stream in which every stop has its start, by the number of the starts left open: balanced
parts, with a start between each of them and the next. -/
inductive LeavesOpen : Nat → List Located → Prop
  /-- No start is left open. -/
  | balanced {events : List Located} (whole : Balanced events) : LeavesOpen 0 events
  /-- The first start left open, with what is behind it. -/
  | start {n : Nat} {opening : Opening} {span : Span} {before rest : List Located}
      (front : Balanced before) (behind : LeavesOpen n rest) :
      LeavesOpen (n + 1) (before ++ ⟨.start opening, span⟩ :: rest)

/-- Two balanced streams make up a balanced one. -/
theorem Balanced.append (first : Balanced events) (second : Balanced more) :
    Balanced (events ++ more) := by
  induction first with
  | nil => exact second
  | plain event _ ih => exact .plain event ih
  | nested inside _ _ ih =>
      rw [List.cons_append, List.append_assoc, List.cons_append]
      exact .nested inside ih

namespace LeavesOpen

/-- A balanced stream opens nothing and closes nothing. -/
theorem append_balanced (opened : LeavesOpen n events) (balanced : Balanced more) :
    LeavesOpen n (events ++ more) := by
  induction opened with
  | balanced whole => exact .balanced (whole.append balanced)
  | start front _ ih =>
      rw [List.append_assoc, List.cons_append]
      exact .start front ih

/-- A start between two streams is left open, besides those left open in them. -/
theorem append_start (first : LeavesOpen m before) (second : LeavesOpen n rest) :
    LeavesOpen (m + n + 1) (before ++ ⟨.start opening, span⟩ :: rest) := by
  induction first with
  | balanced whole =>
      rw [Nat.zero_add]
      exact .start whole second
  | start front _ ih =>
      rw [List.append_assoc, List.cons_append, Nat.add_right_comm _ 1]
      exact .start front ih

/-- A stop closes the last start left open. -/
theorem append_stop (opened : LeavesOpen n events) (some : n = m + 1) :
    LeavesOpen m (events ++ [⟨.stop, span⟩]) := by
  induction opened generalizing m with
  | balanced _ => cases some
  | start front behind ih =>
      obtain rfl := Nat.succ.inj some
      rw [List.append_assoc, List.cons_append]
      cases behind with
      | balanced inside => exact .balanced (front.append (.nested inside .nil))
      | start front' behind' => exact .start front (ih rfl)

end LeavesOpen

/-- **The form of a stream.** The events are taken one after the other: what they leave open is
closed again from its end, and a stop where nothing is open is the first one without a start. -/
theorem leavesOpen_or_overclosed (events : List Located) :
    (∃ n, LeavesOpen n events) ∨
      ∃ before span after, events = before ++ ⟨.stop, span⟩ :: after ∧ Balanced before := by
  induction events using List.reverseRecOn with
  | nil => exact .inl ⟨0, .balanced .nil⟩
  | append_singleton events e ih =>
      rcases ih with ⟨n, opened⟩ | ⟨before, span, after, rfl, balanced⟩
      · obtain ⟨event, span⟩ := e
        cases event with
        | start opening => exact .inl ⟨_, opened.append_start (.balanced .nil)⟩
        | stop =>
            cases opened with
            | balanced whole => exact .inr ⟨events, span, [], rfl, whole⟩
            | start front behind => exact .inl ⟨_, (LeavesOpen.start front behind).append_stop rfl⟩
        | _ => exact .inl ⟨n, opened.append_balanced (.plain rfl .nil)⟩
      · exact .inr ⟨before, span, after ++ [e], by simp, balanced⟩

/-! ### Reading -/

namespace Assembly

variable {a b : Assembly}

/-- An open construct adds one frame. -/
theorem length_below_openFrame (a : Assembly) (opening : Opening) (start : Nat) :
    (a.openFrame opening start).below.length = a.below.length + 1 := by
  have pushed := congrArg List.length (bare_openFrame a opening start)
  rw [List.length_cons, length_bare, length_bare] at pushed
  exact Nat.succ.inj pushed

/-- **Reading keeps open what a stream leaves open**, besides what was open before. -/
theorem run_of_leavesOpen (opened : LeavesOpen n events) (a : Assembly) :
    ∃ b, a.run events = .ok b ∧ b.below.length = a.below.length + n := by
  induction opened generalizing a with
  | balanced whole => exact exists_run_of_balanced whole a
  | @start n opening span before rest front _ ih =>
      obtain ⟨b, ran, depth⟩ := exists_run_of_balanced front a
      obtain ⟨d, ran', depth'⟩ := ih (b.openFrame opening span.start)
      refine ⟨d, ?_, ?_⟩
      · rw [run_append, ran]
        exact ran'
      · rw [depth', length_below_openFrame, depth]
        omega

/-- **Reading fails at a stop behind a balanced beginning**, if nothing was open before. -/
theorem run_overclosed (balanced : Balanced before) (closed : a.below = []) :
    a.run (before ++ ⟨.stop, span⟩ :: after) = .error (.unbalancedStop span.stop) := by
  obtain ⟨b, ran, depth⟩ := exists_run_of_balanced balanced a
  rw [closed, List.length_nil, List.length_eq_zero_iff] at depth
  have alone : b.bare = [b.top.bare] := by rw [bare, depth, List.map_singleton]
  have failed : b.step ⟨.stop, span⟩ = .error (.unbalancedStop span.stop) :=
    closeFrame_error alone span.stop
  rw [run_append, ran, Except.bind, run, failed]
  rfl

/-- Where a construct is open, assembly ends with the number of open constructs. -/
theorem finish_unclosed (opened : a.below ≠ []) :
    a.finish = .error (.unclosed a.below.length) := by
  have same : ((a.markupUntil (byteLength a.source)).flush).below.length = a.below.length := by
    have := congrArg List.length
      ((bare_flush (a.markupUntil (byteLength a.source))).trans (bare_markupUntil a _))
    rwa [length_bare, length_bare, Nat.add_left_inj] at this
  unfold finish
  simp only
  generalize (a.markupUntil (byteLength a.source)).flush = d at same ⊢
  rw [← same, if_neg]
  rw [List.isEmpty_iff, ← List.length_eq_zero_iff, same, List.length_eq_zero_iff]
  exact opened

end Assembly

/-- A balanced stream is read into a forest. -/
theorem ofEvents_of_balanced (source : String) (balanced : Balanced events) :
    ∃ nodes, Forest.ofEvents source events = .ok nodes := by
  obtain ⟨a, ran, depth⟩ := Assembly.exists_run_of_balanced balanced { source := source.toList }
  have alone : a.bare = [a.top.bare] := by
    rw [Assembly.bare, List.length_eq_zero_iff.mp depth, List.map_singleton]
  obtain ⟨nodes, finished, -⟩ := Assembly.finish_bare alone
  refine ⟨nodes, ?_⟩
  rw [Forest.ofEvents, ran]
  exact finished

/-- A stream that leaves constructs open is refused with their number. -/
theorem ofEvents_of_leavesOpen (source : String) (opened : LeavesOpen n events) (some : n ≠ 0) :
    Forest.ofEvents source events = .error (.unclosed n) := by
  obtain ⟨a, ran, depth⟩ := Assembly.run_of_leavesOpen opened { source := source.toList }
  obtain rfl : a.below.length = n := by simpa using depth
  rw [Forest.ofEvents, ran]
  exact Assembly.finish_unclosed fun none => some (List.length_eq_zero_iff.mpr none)

/-- A stream that closes a construct too many is refused at that place. -/
theorem ofEvents_overclosed (source : String) (balanced : Balanced before) :
    Forest.ofEvents source (before ++ ⟨.stop, span⟩ :: after) =
      .error (.unbalancedStop span.stop) := by
  have ran : Assembly.run { source := source.toList } (before ++ ⟨.stop, span⟩ :: after) =
      .error (.unbalancedStop span.stop) := Assembly.run_overclosed balanced rfl
  rw [Forest.ofEvents, ran]
  rfl

/-! ### Loose starts and stops -/

namespace LeavesOpen

/-- Reading tells how many starts a stream leaves open. -/
theorem unique (opened : LeavesOpen m events) (opened' : LeavesOpen n events) : m = n := by
  obtain ⟨a, ran, depth⟩ := Assembly.run_of_leavesOpen opened { source := [] }
  obtain ⟨b, ran', depth'⟩ := Assembly.run_of_leavesOpen opened' { source := [] }
  obtain rfl := Except.ok.inj (ran.symm.trans ran')
  simpa using depth.symm.trans depth'

/-- A stream of the one form is not of the other. -/
theorem not_overclosed (opened : LeavesOpen n (before ++ ⟨.stop, span⟩ :: after)) :
    ¬ Balanced before := by
  intro balanced
  obtain ⟨a, ran, -⟩ := Assembly.run_of_leavesOpen opened { source := [] }
  cases ran.symm.trans (Assembly.run_overclosed balanced rfl)

/-- In the beginning of a stream every stop has its start if this is so in the whole. -/
theorem of_append (opened : LeavesOpen n (before ++ rest)) : ∃ m, LeavesOpen m before := by
  rcases leavesOpen_or_overclosed before with here | ⟨front, span, behind, rfl, balanced⟩
  · exact here
  · rw [List.append_assoc, List.cons_append] at opened
    exact absurd balanced opened.not_overclosed

/-- Before a stop that has its start, some start is left open. -/
theorem before_stop (opened : LeavesOpen n (before ++ ⟨.stop, span⟩ :: after)) :
    ∃ m, m ≠ 0 ∧ LeavesOpen m before := by
  obtain ⟨m, here⟩ := opened.of_append
  refine ⟨m, ?_, here⟩
  rintro rfl
  cases here with
  | balanced whole => exact opened.not_overclosed whole

end LeavesOpen

/-- The events at a position, with those before and behind it. -/
theorem exists_eq_append {e : Located} (here : events[i]? = some e) :
    ∃ before after, events = before ++ e :: after ∧ before.length = i := by
  obtain ⟨inside, rfl⟩ := List.getElem?_eq_some_iff.mp here
  refine ⟨events.take i, events.drop (i + 1), ?_, List.length_take_of_le (Nat.le_of_lt inside)⟩
  rw [← List.drop_eq_getElem_cons inside, List.take_append_drop]

namespace Matched

/-- Matching places stay so with more events behind. -/
theorem append (matched : Matched events i j) (more : List Located) :
    Matched (events ++ more) i j := by
  obtain ⟨before, opening, span, inner, span', ⟨inside, after, rfl⟩, rfl, rfl⟩ := matched
  exact ⟨before, opening, span, inner, span', ⟨inside, after ++ more, by simp⟩, rfl, rfl⟩

/-- Matching places move with events in front. -/
theorem append_left (front : List Located) (matched : Matched events i j) :
    Matched (front ++ events) (front.length + i) (front.length + j) := by
  obtain ⟨before, opening, span, inner, span', ⟨inside, after, rfl⟩, rfl, rfl⟩ := matched
  exact ⟨front ++ before, opening, span, inner, span', ⟨inside, after, by simp⟩, by simp,
    by simp [Nat.add_assoc]⟩

end Matched

/-- Whether a start has its stop is settled by what follows it: a balanced part with a stop behind
it. -/
theorem exists_matched_iff :
    (∃ j, Matched (before ++ ⟨.start opening, span⟩ :: rest) before.length j) ↔
      ∃ inner span' after, rest = inner ++ ⟨.stop, span'⟩ :: after ∧ Balanced inner := by
  constructor
  · rintro ⟨j, front, opening', span', inner, span'', ⟨inside, after, place⟩, same, -⟩
    obtain ⟨-, tail⟩ := List.append_inj place same
    exact ⟨inner, span'', after, (List.cons.inj tail).2, inside⟩
  · rintro ⟨inner, span', after, rfl, inside⟩
    exact ⟨_, before, opening, span, inner, span', ⟨inside, after, rfl⟩, rfl, rfl⟩

/-- A stop has its start where a start is left open before it. -/
theorem exists_matched_stop (opened : LeavesOpen n before) (some : n ≠ 0) :
    ∃ i, Matched (before ++ ⟨.stop, span⟩ :: after) i before.length := by
  induction opened with
  | balanced _ => exact absurd rfl some
  | @start n opening span' front rest _ behind ih =>
      cases n with
      | zero =>
          cases behind with
          | balanced inside =>
              exact ⟨_, front, opening, span', rest, span, ⟨inside, after, by simp⟩, rfl, by simp⟩
      | succ n =>
          obtain ⟨i, matched⟩ := ih (Nat.succ_ne_zero n)
          have longer := matched.append_left (front ++ [⟨.start opening, span'⟩])
          refine ⟨front.length + 1 + i, ?_⟩
          simpa [Nat.add_assoc, Nat.add_comm 1] using longer

/-- A stop behind a balanced beginning has no start. -/
theorem not_matched_stop (balanced : Balanced before) :
    ¬ ∃ i, Matched (before ++ ⟨.stop, span⟩ :: after) i before.length := by
  rintro ⟨i, front, opening, span', inner, span'', ⟨inside, behind, place⟩, -, same⟩
  have split : before ++ ⟨.stop, span⟩ :: after =
      (front ++ ⟨.start opening, span'⟩ :: inner) ++ ⟨.stop, span''⟩ :: behind := by
    simpa using place
  obtain ⟨rfl, -⟩ := List.append_inj split (by simpa using same)
  obtain ⟨n, opened⟩ := (LeavesOpen.balanced balanced).of_append
  cases (opened.append_start (.balanced inside)).unique (.balanced balanced)

/-- Where every stop has its start, there is no stop without. -/
theorem looseStops_eq_empty (opened : LeavesOpen n events) : looseStops events = ∅ := by
  refine Set.eq_empty_iff_forall_notMem.mpr ?_
  rintro j ⟨⟨span, here⟩, loose⟩
  obtain ⟨before, after, rfl, rfl⟩ := exists_eq_append here
  obtain ⟨m, some, opened'⟩ := opened.before_stop
  exact loose (exists_matched_stop opened' some)

/-- **The first stop without a start** stands behind a balanced beginning. -/
theorem isLeast_looseStops (balanced : Balanced before) :
    IsLeast (looseStops (before ++ ⟨.stop, span⟩ :: after)) before.length := by
  refine ⟨⟨⟨span, by simp⟩, not_matched_stop balanced⟩, ?_⟩
  rintro j ⟨⟨span', here⟩, loose⟩
  by_contra early
  rw [Nat.not_le] at early
  rw [List.getElem?_append_left early] at here
  have none : j ∉ looseStops before := by simp [looseStops_eq_empty (.balanced balanced)]
  refine none ⟨⟨span', here⟩, fun ⟨i, matched⟩ => loose ⟨i, matched.append _⟩⟩

/-- A start has no stop where every stop behind it has a start behind it. -/
theorem mem_looseStarts (opened : LeavesOpen n rest) :
    before.length ∈ looseStarts (before ++ ⟨.start opening, span⟩ :: rest) := by
  refine ⟨⟨opening, span, by simp⟩, ?_⟩
  rw [exists_matched_iff]
  rintro ⟨inner, span', after, rfl, inside⟩
  exact opened.not_overclosed inside

/-- A balanced stream has no loose starts. -/
theorem looseStarts_of_balanced (balanced : Balanced events) : looseStarts events = ∅ := by
  refine Set.eq_empty_iff_forall_notMem.mpr ?_
  rintro i ⟨⟨opening, span, here⟩, loose⟩
  obtain ⟨before, rest, rfl, rfl⟩ := exists_eq_append here
  rw [exists_matched_iff] at loose
  rcases leavesOpen_or_overclosed rest with ⟨n, opened⟩ | ⟨inner, span', after, rfl, inside⟩
  · -- The start would be left open in the whole stream, which leaves nothing open.
    obtain ⟨m, opened'⟩ := (LeavesOpen.balanced balanced).of_append
    cases (opened'.append_start opened).unique (.balanced balanced)
  · exact loose ⟨inner, span', after, rfl, inside⟩

/-- Whether a start has a stop does not depend on what stands before it. -/
theorem mem_looseStarts_append (front events : List Located) (i : Nat) :
    front.length + i ∈ looseStarts (front ++ events) ↔ i ∈ looseStarts events := by
  have same : (front ++ events)[front.length + i]? = events[i]? := by
    rw [List.getElem?_append_right (Nat.le_add_right _ _), Nat.add_sub_cancel_left]
  rw [looseStarts, looseStarts, Set.mem_ofPred_eq, Set.mem_ofPred_eq, same]
  refine and_congr_right fun ⟨opening, span, here⟩ => not_congr ?_
  obtain ⟨before, rest, rfl, rfl⟩ := exists_eq_append here
  rw [exists_matched_iff, ← List.length_append, ← List.append_assoc, exists_matched_iff]

/-- The first start left open, and those behind it. -/
theorem looseStarts_append_start (balanced : Balanced before) (opened : LeavesOpen n rest) :
    looseStarts (before ++ ⟨.start opening, span⟩ :: rest) =
      insert before.length ((before.length + 1 + ·) '' looseStarts rest) := by
  have shift : ∀ i, before.length + 1 + i ∈ looseStarts (before ++ ⟨.start opening, span⟩ :: rest) ↔
      i ∈ looseStarts rest := by
    intro i
    have shifted := mem_looseStarts_append (before ++ [⟨.start opening, span⟩]) rest i
    rwa [List.append_assoc, List.length_append] at shifted
  ext i
  rw [Set.mem_insert_iff, Set.mem_image]
  constructor
  · intro member
    rcases Nat.lt_trichotomy i before.length with early | here | late
    · obtain ⟨⟨opening', span', here⟩, loose⟩ := member
      rw [List.getElem?_append_left early] at here
      have none : i ∉ looseStarts before := by simp [looseStarts_of_balanced balanced]
      exact absurd ⟨⟨opening', span', here⟩, fun ⟨j, matched⟩ => loose ⟨j, matched.append _⟩⟩ none
    · exact .inl here
    · obtain ⟨k, rfl⟩ := Nat.exists_eq_add_of_le (Nat.succ_le_of_lt late)
      exact .inr ⟨k, (shift k).mp member, rfl⟩
  · rintro (rfl | ⟨k, member, rfl⟩)
    · exact mem_looseStarts opened
    · exact (shift k).mpr member

/-- There are only as many loose starts as events. -/
theorem finite_looseStarts (events : List Located) : (looseStarts events).Finite :=
  (Set.finite_lt_nat events.length).subset fun _ ⟨⟨_, _, here⟩, _⟩ =>
    (List.getElem?_eq_some_iff.mp here).1

/-- **The starts without a stop** are as many as are left open. -/
theorem ncard_looseStarts (opened : LeavesOpen n events) : (looseStarts events).ncard = n := by
  induction opened with
  | balanced whole => rw [looseStarts_of_balanced whole, Set.ncard_empty]
  | @start n opening span before rest front behind ih =>
      have later : before.length ∉ (before.length + 1 + ·) '' looseStarts rest := by
        rintro ⟨k, -, same⟩
        have : before.length + 1 + k = before.length := same
        omega
      rw [looseStarts_append_start front behind,
        Set.ncard_insert_of_notMem later ((finite_looseStarts rest).image _),
        Set.ncard_image_of_injective _ (add_right_injective _), ih]

/-! ### The bottom of the stack -/

namespace Assembly

variable {a b : Assembly}

/-- The construct around all the others. -/
def outermost (a : Assembly) : Frame :=
  (a.top :: a.below).getLast (List.cons_ne_nil _ _)

/-- The shapes of the open constructs, innermost first. -/
def shapes (a : Assembly) : List FrameKind :=
  a.bare.map (·.kind.shape)

/-- The last of the shapes is that of the outermost frame. -/
theorem getLast?_shapes (a : Assembly) : a.shapes.getLast? = some a.outermost.kind.shape := by
  have same : a.shapes = (a.top :: a.below).map (·.kind.shape) := by
    rw [shapes, bare, List.map_map]
    refine List.map_congr_left fun frame _ => ?_
    obtain ⟨kind, start, children, pending⟩ := frame
    cases kind <;> rfl
  rw [same, List.getLast?_map, List.getLast?_eq_some_getLast (List.cons_ne_nil _ _)]
  rfl

/-- Task markers change the shape of no frame. -/
theorem map_shape_markItems (markers : List Bool) (frames : List Frame) :
    (markItems markers frames).map (·.kind.shape) = frames.map (·.kind.shape) := by
  have same := congrArg (List.map Frame.kind) (outline_markItems markers frames)
  rwa [List.map_map, List.map_map] at same

/-- **What one event does to the stack**: it leaves the shapes of the open constructs as they are,
opens a construct, or closes the innermost one. -/
theorem shapes_of_step {e : Located} (stepped : a.step e = .ok b) :
    b.shapes = a.shapes ∨ (∃ shape, b.shapes = shape :: a.shapes) ∨
      ∃ shape, a.shapes = shape :: b.shapes := by
  by_cases plain : e.event.isPlain = true
  · obtain ⟨b', stepped', marked, -⟩ := step_plain plain a
    obtain rfl := Except.ok.inj (stepped'.symm.trans stepped)
    left
    rw [shapes, marked]
    exact map_shape_markItems _ _
  · obtain ⟨event, span⟩ := e
    cases event with
    | start opening =>
        obtain rfl := Except.ok.inj stepped
        refine .inr (.inl ⟨(a.frameKind opening).shape, ?_⟩)
        rw [shapes, bare_openFrame, List.map_cons, shapes]
    | stop =>
        obtain ⟨frame, frames, opened⟩ := List.exists_cons_of_ne_nil (bare_ne_nil a)
        cases frames with
        | nil => cases stepped.symm.trans (closeFrame_error opened span.stop)
        | cons next frames =>
            obtain ⟨b', stepped', left, -⟩ :=
              closeFrame_bare opened (List.cons_ne_nil next frames) span.stop
            obtain rfl := Except.ok.inj (stepped'.symm.trans stepped)
            refine .inr (.inr ⟨frame.kind.shape, ?_⟩)
            rw [shapes, shapes, opened, left]
            rfl
    | _ => exact absurd rfl plain

/-- There is always a frame. -/
theorem shapes_ne_nil (a : Assembly) : a.shapes ≠ [] := by
  simp [shapes, bare]

/-- The construct around all the others stays the same, by induction on the events read. -/
theorem getLast?_shapes_of_run (ran : a.run events = .ok b) :
    b.shapes.getLast? = a.shapes.getLast? := by
  induction events generalizing a with
  | nil =>
      obtain rfl := Except.ok.inj ran
      rfl
  | cons e events ih =>
      obtain ⟨d, stepped, further⟩ := run_cons_eq_ok.mp ran
      rw [ih further]
      rcases shapes_of_step stepped with same | ⟨shape, pushed⟩ | ⟨shape, popped⟩
      · rw [same]
      · rw [pushed, List.getLast?_cons_of_ne_nil (shapes_ne_nil a)]
      · rw [popped, List.getLast?_cons_of_ne_nil (shapes_ne_nil d)]

/-- **The forest itself is never closed**: it stays around all the constructs that are open. -/
theorem outermost_of_run {source : List Char} (ran : Assembly.run { source } events = .ok a) :
    a.outermost.kind = .root := by
  have last := (getLast?_shapes a).symm.trans (getLast?_shapes_of_run ran)
  have shape : a.outermost.kind.shape = .root := Option.some.inj last
  cases kind : a.outermost.kind with
  | root => rfl
  | _ => simp [kind, FrameKind.shape] at shape

end Assembly

/-- What reading comes to, in each of the three situations that there are. -/
theorem ofEvents_cases (source : String) (events : List Located) :
    (looseStops events = ∅ ∧ looseStarts events = ∅ ∧
      ∃ nodes, Forest.ofEvents source events = .ok nodes) ∨
    (∃ j span, IsLeast (looseStops events) j ∧ events[j]? = some ⟨.stop, span⟩ ∧
      Forest.ofEvents source events = .error (.unbalancedStop span.stop)) ∨
    (looseStops events = ∅ ∧ looseStarts events ≠ ∅ ∧
      Forest.ofEvents source events = .error (.unclosed (looseStarts events).ncard)) := by
  rcases leavesOpen_or_overclosed events with ⟨n, opened⟩ | ⟨before, span, after, rfl, balanced⟩
  · have stops := looseStops_eq_empty opened
    have starts := ncard_looseStarts opened
    cases n with
    | zero =>
        cases opened with
        | balanced whole =>
            exact .inl ⟨stops, looseStarts_of_balanced whole, ofEvents_of_balanced source whole⟩
    | succ n =>
        refine .inr (.inr ⟨stops, ?_, ?_⟩)
        · rintro none
          rw [none, Set.ncard_empty] at starts
          cases starts
        · rw [starts]
          exact ofEvents_of_leavesOpen source opened (Nat.succ_ne_zero n)
  · exact .inr (.inl ⟨before.length, span, isLeast_looseStops balanced, by simp,
      ofEvents_overclosed source balanced⟩)

/-- **A stream is read exactly if its starts and stops match**, whatever its spans are. If some stop
has no start, the error is about the first of these stops and tells the end of its span. If only
starts are left without a stop, the error tells their number. There is no other error, since the
forest itself is never closed: after any part of the stream that was read, it is around the
constructs that are open, which are as many as there are starts without a stop in this part. -/
theorem read_exactly_if_matched (source : String) (events : List Located) :
    ((∃ nodes, Forest.ofEvents source events = .ok nodes) ↔
      looseStops events = ∅ ∧ looseStarts events = ∅) ∧
    (∀ offset, Forest.ofEvents source events = .error (.unbalancedStop offset) ↔
      ∃ j span, IsLeast (looseStops events) j ∧ events[j]? = some ⟨.stop, span⟩ ∧
        span.stop = offset) ∧
    (∀ count, Forest.ofEvents source events = .error (.unclosed count) ↔
      looseStops events = ∅ ∧ looseStarts events ≠ ∅ ∧ (looseStarts events).ncard = count) ∧
    (∀ before, before <+: events → ∀ a, Assembly.run { source := source.toList } before = .ok a →
      a.outermost.kind = .root ∧ a.below.length = (looseStarts before).ncard) ∧
    ∀ missing, FallibleAssembly.read missing source events = Forest.ofEvents source events := by
  refine ⟨?_, ?_, ?_, fun before _ a ran => ⟨Assembly.outermost_of_run ran, ?_⟩,
    fun missing => FallibleAssembly.read_eq_ofEvents missing source events⟩
  · rcases ofEvents_cases source events with
      ⟨stops, starts, outcome⟩ | ⟨j, span, least, -, outcome⟩ | ⟨-, starts, outcome⟩
    · exact iff_of_true outcome ⟨stops, starts⟩
    · simp [outcome, Set.nonempty_iff_ne_empty.mp ⟨j, least.1⟩]
    · simp [outcome, starts]
  · intro offset
    rcases ofEvents_cases source events with
      ⟨stops, -, nodes, outcome⟩ | ⟨j, span, least, here, outcome⟩ | ⟨stops, -, outcome⟩
    · simp [outcome, stops, IsLeast]
    · rw [outcome, Except.error.injEq, ParseError.unbalancedStop.injEq]
      refine ⟨fun same => ⟨j, span, least, here, same⟩, ?_⟩
      rintro ⟨j', span', least', here', rfl⟩
      rw [least'.unique least, here] at here'
      cases here'
      rfl
    · simp [outcome, stops, IsLeast]
  · intro count
    rcases ofEvents_cases source events with
      ⟨-, starts, nodes, outcome⟩ | ⟨j, span, least, -, outcome⟩ | ⟨stops, starts, outcome⟩
    · simp [outcome, starts]
    · simp [outcome, Set.nonempty_iff_ne_empty.mp ⟨j, least.1⟩]
    · simp [outcome, stops, starts]
  · rcases leavesOpen_or_overclosed before with ⟨n, opened⟩ | ⟨front, span, after, rfl, balanced⟩
    · obtain ⟨b, ran', depth⟩ := Assembly.run_of_leavesOpen opened { source := source.toList }
      obtain rfl := Except.ok.inj (ran'.symm.trans ran)
      rw [ncard_looseStarts opened]
      simpa using depth
    · cases ran.symm.trans (Assembly.run_overclosed balanced rfl)

/-- The events of a quote that is not closed, with spans that end before they begin, lie outside of
the text or cut a character in two. -/
def unclosedQuote : List Located :=
  [⟨.start .quote, ⟨0, 9⟩⟩, ⟨.start .paragraph, ⟨3, 2⟩⟩, ⟨.text "é", ⟨2, 3⟩⟩, ⟨.stop, ⟨7, 1⟩⟩,
    ⟨.start .emphasis, ⟨4, 4⟩⟩]

/-- Two starts are left, and the paragraph does not count. -/
theorem read_exactly_if_matched_unclosedQuote :
    Forest.ofEvents "> é" unclosedQuote = .error (.unclosed 2) ∧
      looseStops unclosedQuote = ∅ ∧ (looseStarts unclosedQuote).ncard = 2 ∧
    unclosedQuote.take 2 <+: unclosedQuote ∧
      ∃ a, Assembly.run { source := "> é".toList } (unclosedQuote.take 2) = .ok a ∧
        a.outermost.kind = .root ∧ a.below.length = (looseStarts (unclosedQuote.take 2)).ncard := by
  obtain ⟨-, -, unclosed, reading, -⟩ := read_exactly_if_matched "> é" unclosedQuote
  have failed : Forest.ofEvents "> é" unclosedQuote = .error (.unclosed 2) := rfl
  obtain ⟨stops, -, count⟩ := (unclosed 2).mp failed
  have begins := List.take_prefix 2 unclosedQuote
  exact ⟨failed, stops, count, begins, _, rfl, reading _ begins _ rfl⟩

/-- The first of two stops without a start is reported, after an emphasis that has both. -/
example : Forest.ofEvents "a"
    [⟨.start .emphasis, ⟨0, 1⟩⟩, ⟨.stop, ⟨0, 1⟩⟩, ⟨.stop, ⟨8, 5⟩⟩, ⟨.stop, ⟨0, 6⟩⟩] =
      .error (.unbalancedStop 5) :=
  rfl

end TaggedMemos
