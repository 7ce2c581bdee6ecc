import Mathlib.Algebra.Order.BigOperators.Group.Finset
import TaggedMemos.Proofs.Totals

/-!
# The Recursion behind a Total

A total is the result of a recursion over child links: a path that was visited before counts
nothing, and neither does one that is no entry; an entry counts itself and adds up what its children
count, one after the other, each with the paths that were visited until then. `countFrom` is that
recursion with the calls still to be made kept in one list. Here the recursion is a relation,
`Tallies`, whose derivations are the finite trees of calls. The sums are formed in words of a
limited size, so there is no derivation either if one of them is too large.

On any links at all, a total that fits has a derivation, and it is the only total that has one. No
sum on the way can be too large, because each is a part of the total. The calls come to an end
because the entries that are not visited get fewer with each of them that does not return at once.

## Main results

* `Tallies.add_countFrom`: what the recursion adds up is what the search counts.
* `exists_tallies`: the recursion ends, on any links.
* `total_counts_reachable`: a total is the sum over what can be reached, on any links.
-/

namespace TaggedMemos.TagIndex

open Relation

variable {index : TagIndex} {limit total total' : Nat} {visited visited' pending : List String}
variable {path : String} {node : TagNode}

/-- The recursion over child links, with sums of at most `limit`. The paths in `pending` are visited
in turn, with `total` counted before and the paths in `visited` visited before; `total'` and
`visited'` are what there is afterwards. -/
inductive Tallies (index : TagIndex) (limit : Nat) :
    List String → Nat → List String → Nat → List String → Prop
  /-- All paths have been visited. -/
  | done (visited : List String) (total : Nat) : Tallies index limit visited total [] total visited
  /-- A path that was visited before counts nothing. -/
  | seen {visited visited' pending : List String} {total total' : Nat} {path : String} :
      path ∈ visited → Tallies index limit visited total pending total' visited' →
      Tallies index limit visited total (path :: pending) total' visited'
  /-- A path that is no entry counts nothing. -/
  | missing {visited visited' pending : List String} {total total' : Nat} {path : String} :
      path ∉ visited → index.find? path = none →
      Tallies index limit (path :: visited) total pending total' visited' →
      Tallies index limit visited total (path :: pending) total' visited'
  /-- An entry counts itself and its children. -/
  | entry {visited between visited' pending : List String} {total count total' : Nat}
      {path : String} {node : TagNode} :
      path ∉ visited → index.find? path = some node →
      Tallies index limit (path :: visited) node.directCount node.childPaths count between →
      total + count ≤ limit →
      Tallies index limit between (total + count) pending total' visited' →
      Tallies index limit visited total (path :: pending) total' visited'

/-! ### What the search does with a path -/

/-- A path that was visited counts nothing. -/
theorem countFrom_seen (seen : path ∈ visited) :
    index.countFrom visited (path :: pending) = index.countFrom visited pending := by
  rw [countFrom, dif_pos (List.contains_iff_mem.mpr seen)]

/-- A path without a node counts nothing. -/
theorem countFrom_missing (missing : index.find? path = none) :
    index.countFrom visited (path :: pending) = index.countFrom visited pending := by
  rw [countFrom]
  split
  · rfl
  · split
    · rfl
    · next found => cases missing.symm.trans found

/-- A path that is new counts its own memos, and goes on with its children. -/
theorem countFrom_entry (new : path ∉ visited) (found : index.find? path = some node) :
    index.countFrom visited (path :: pending) =
      node.directCount + index.countFrom (path :: visited) (node.childPaths ++ pending) := by
  rw [countFrom, dif_neg (by simpa using new)]
  split
  · next missing => cases missing.symm.trans found
  · next node' found' =>
      obtain rfl := Option.some.inj (found.symm.trans found')
      rfl

/-- It makes no difference to have visited a path that is no entry. -/
theorem countFrom_cons_missing (missing : index.find? path = none) (pending : List String) :
    index.countFrom (path :: visited) pending = index.countFrom visited pending := by
  obtain ⟨met, all⟩ := exists_met index visited pending
  rw [countFrom_eq_sum index _ _ _ all]
  refine countFrom_eq_sum index _ _ _ fun other => (all other).trans ⟨?_, ?_⟩
  · -- Links lead to entries only, so the path is not on the way.
    have away : ∀ {child}, child ∈ index.keys → child ∉ visited → child ∉ path :: visited := by
      intro child known new
      refine List.not_mem_cons_of_ne_of_not_mem ?_ new
      rintro rfl
      exact find?_eq_none.mp missing known
    rintro ⟨start, member, known, new, links⟩
    exact ⟨start, member, known, away known new,
      ReflTransGen.mono (fun _ _ link => ⟨link.1, away link.1.1 link.2⟩) _ _ links⟩
  · rintro ⟨start, member, reaches⟩
    exact ⟨start, member, reaches.unvisit⟩

/-! ### What the recursion adds up -/

/-- **The recursion adds up what the search counts**, whatever is still to be visited after it. -/
theorem Tallies.add_countFrom
    (tallies : index.Tallies limit visited total pending total' visited') (rest : List String) :
    total' + index.countFrom visited' rest = total + index.countFrom visited (pending ++ rest) := by
  induction tallies generalizing rest with
  | done => rfl
  | seen seen _ ih => rw [List.cons_append, countFrom_seen seen, ih]
  | missing _ missing _ ih =>
      rw [List.cons_append, countFrom_missing missing, ih, countFrom_cons_missing missing]
  | entry new found _ _ _ children later =>
      rw [List.cons_append, countFrom_entry new found, later, Nat.add_assoc, children]

/-- A tally adds what is counted. -/
theorem Tallies.eq_add (tallies : index.Tallies limit visited total pending total' visited') :
    total' = total + index.countFrom visited pending := by
  simpa [countFrom] using tallies.add_countFrom []

/-- Sums that are too large have no derivation. -/
theorem Tallies.le_limit (tallies : index.Tallies limit visited total pending total' visited')
    (fits : total ≤ limit) : total' ≤ limit := by
  induction tallies with
  | done => exact fits
  | seen _ _ ih => exact ih fits
  | missing _ _ _ ih => exact ih fits
  | entry _ _ _ fits' _ _ later => exact later fits'

/-- What was visited stays visited. -/
theorem Tallies.subset (tallies : index.Tallies limit visited total pending total' visited') :
    visited ⊆ visited' := by
  induction tallies with
  | done => exact List.Subset.refl _
  | seen _ _ ih => exact ih
  | missing _ _ _ ih => exact List.subset_of_cons_subset ih
  | entry _ _ _ _ _ children later =>
      exact List.Subset.trans (List.subset_of_cons_subset children) later

/-- The more is visited, the fewer entries are not. -/
theorem length_unvisited_le (more : visited ⊆ visited') :
    (index.unvisited visited').length ≤ (index.unvisited visited).length := by
  refine (List.monotone_filter_right index fun entry new => ?_).length_le
  simp only [Bool.not_eq_true', List.contains_eq_mem, decide_eq_false_iff_not] at new ⊢
  exact fun old => new (more old)

/-- More paths count no less. -/
theorem countFrom_le_append (index : TagIndex) (visited pending rest : List String) :
    index.countFrom visited pending ≤ index.countFrom visited (pending ++ rest) := by
  obtain ⟨met, all⟩ := exists_met index visited pending
  obtain ⟨met', all'⟩ := exists_met index visited (pending ++ rest)
  rw [countFrom_eq_sum index _ _ _ all, countFrom_eq_sum index _ _ _ all']
  refine Finset.sum_le_sum_of_subset fun other reached => ?_
  obtain ⟨start, member, reaches⟩ := (all other).mp reached
  exact (all' other).mpr ⟨start, List.mem_append_left _ member, reaches⟩

/-- **The recursion ends**, on any links, if the total fits. -/
theorem exists_tallies (index : TagIndex) (limit total : Nat) (visited pending : List String)
    (fits : total + index.countFrom visited pending ≤ limit) :
    ∃ total' visited', index.Tallies limit visited total pending total' visited' := by
  match pending with
  | [] => exact ⟨total, visited, .done visited total⟩
  | path :: pending =>
      by_cases old : path ∈ visited
      · rw [countFrom_seen old] at fits
        obtain ⟨total', visited', tallies⟩ := exists_tallies index limit total visited pending fits
        exact ⟨total', visited', .seen old tallies⟩
      cases found : index.find? path with
      | none =>
          rw [countFrom_missing found, ← countFrom_cons_missing found] at fits
          obtain ⟨total', visited', tallies⟩ :=
            exists_tallies index limit total (path :: visited) pending fits
          exact ⟨total', visited', .missing old found tallies⟩
      | some node =>
          rw [countFrom_entry old found] at fits
          have part := countFrom_le_append index (path :: visited) node.childPaths pending
          obtain ⟨count, between, children⟩ := exists_tallies index limit node.directCount
            (path :: visited) node.childPaths (by omega)
          have onward := children.add_countFrom pending
          obtain ⟨total', visited', later⟩ :=
            exists_tallies index limit (total + count) between pending (by omega)
          exact ⟨total', visited', .entry old found children (by omega) later⟩
termination_by ((index.unvisited visited).length, pending.length)
decreasing_by
  · exact Prod.Lex.right _ (Nat.lt_succ_self _)
  · exact Prod.Lex.right' _ (length_unvisited_le (List.subset_cons_self _ _)) (Nat.lt_succ_self _)
  · exact Prod.Lex.left _ _ (length_unvisited_lt (by simpa using old) found)
  · exact Prod.Lex.left _ _ ((length_unvisited_le children.subset).trans_lt
      (length_unvisited_lt (by simpa using old) found))

/-! ### Totals on any links -/

/-- **A total counts what can be reached.** On any links, whether they form cycles, are repeated or
lead nowhere, the total of a path is the sum of the counts of the entries that can be reached from
it by links between entries, each counted once. It is zero if the path is no entry. The recursion
comes to an end with that total if it fits the words in which it is formed, and never with another
one. -/
theorem total_counts_reachable (index : TagIndex) (start : String) :
    ∃ met : Finset String,
      (∀ path, path ∈ met ↔ start ∈ index.keys ∧ ReflTransGen index.IsLink start path) ∧
      index.totalCount start = ∑ path ∈ met, index.countAt path ∧
      (start ∉ index.keys → index.totalCount start = 0) ∧
      ∀ limit,
        (index.totalCount start ≤ limit ↔
          ∃ visited, index.Tallies limit [] 0 [start] (index.totalCount start) visited) ∧
        ∀ total visited, index.Tallies limit [] 0 [start] total visited →
          total = index.totalCount start := by
  have only : ∀ {limit total visited}, index.Tallies limit [] 0 [start] total visited →
      total = index.totalCount start := fun tallies => by
    rw [tallies.eq_add, Nat.zero_add, totalCount]
  obtain ⟨met, all⟩ := exists_met index [] [start]
  refine ⟨met, fun path => (all path).trans ?_, countFrom_eq_sum index _ _ _ all,
    fun unknown => ?_, fun limit => ⟨⟨fun fits => ?_, ?_⟩, fun _ _ => only⟩⟩
  · simp only [List.mem_singleton, exists_eq_left]
    exact reaches_nil
  · rw [totalCount, countFrom_missing (find?_eq_none.mpr unknown), countFrom]
  · obtain ⟨total, visited, tallies⟩ :=
      exists_tallies index limit 0 [] [start] ((Nat.zero_add _).le.trans fits)
    exact ⟨visited, only tallies ▸ tallies⟩
  · rintro ⟨visited, tallies⟩
    exact tallies.le_limit (Nat.zero_le _)

/-- Two entries that are linked in a circle. The first has a repeated link, one to itself, and one
that leads nowhere. -/
def knot : TagIndex :=
  [("/a", 1, ["/b", "/gone", "/b", "/a"]), ("/b", 2, ["/a"]), ("/c", 4, [])].map
    fun (path, count, children) =>
      (path, { TagNode.empty path with directCount := count, childPaths := children })

/-- Each of the two is counted once, and words that hold their sum are large enough. -/
theorem total_counts_reachable_knot :
    knot.totalCount "/a" = 3 ∧ knot.totalCount "/gone" = 0 ∧
      ¬ ∃ visited, knot.Tallies 2 [] 0 ["/a"] 3 visited := by
  have tallies : ∃ visited, knot.Tallies 3 [] 0 ["/a"] 3 visited :=
    ⟨_, .entry (by decide) rfl
      (.entry (by decide) rfl (.seen (by decide) (.done _ _)) (by decide)
        (.missing (by decide) rfl (.seen (by decide) (.seen (by decide) (.done _ _)))))
      (by decide) (.done _ _)⟩
  obtain ⟨_, -, -, -, words⟩ := total_counts_reachable knot "/a"
  obtain ⟨visited, tallies⟩ := tallies
  have total := (words 3).2 _ _ tallies
  obtain ⟨_, -, -, nowhere, -⟩ := total_counts_reachable knot "/gone"
  refine ⟨total.symm, nowhere (by decide), fun ⟨visited, tallies⟩ => ?_⟩
  rw [total] at tallies
  have fits := (words 2).1.mpr ⟨visited, tallies⟩
  rw [← total] at fits
  exact absurd fits (by decide)

end TaggedMemos.TagIndex
