import TaggedMemos.Proofs.Substring
import TaggedMemos.Tag.Path

/-!
# Canonical Paths

A canonical path has a slash in front of each of its segments, and cutting it at the slashes gives
the segments back. The paths of tags are canonical because they are normalized.

## Main results

* `pieces_flatMap`: cutting a written path gives its segments.
* `IsCanonical.normalize_withoutSlash`: the marker of a canonical path is one of that path.
* `isSameOrBelow_iff`: what the paths below another one begin with.
* `parent?_eq_some`: what a path is made of that has a parent.
* `isDirectChild_iff_parent?`: which paths are directly below another one.
-/

namespace TaggedMemos.Text

variable {sep c : Char} {cs rest piece : List Char}

/-! ### Cutting at separators -/

/-- There is always a piece. -/
theorem splitAt_ne_nil (sep : Char) (cs : List Char) : splitAt sep cs ≠ [] := by
  induction cs with
  | nil => simp [splitAt]
  | cons c cs ih =>
      by_cases here : c = sep
      · simp [splitAt, here]
      · rw [splitAt, if_neg here]
        split <;> simp

/-- The first piece goes on with a character that is no separator. -/
theorem splitAt_cons (cs : List Char) (other : c ≠ sep) :
    ∃ first pieces, splitAt sep cs = first :: pieces ∧
      splitAt sep (c :: cs) = (c :: first) :: pieces := by
  cases split : splitAt sep cs with
  | nil => exact absurd split (splitAt_ne_nil sep cs)
  | cons first pieces => exact ⟨first, pieces, rfl, by rw [splitAt, if_neg other, split]⟩

/-- A text without separators is one piece. -/
theorem splitAt_of_not_mem (free : sep ∉ piece) : splitAt sep piece = [piece] := by
  induction piece with
  | nil => rfl
  | cons c piece ih =>
      rw [List.mem_cons, not_or] at free
      rw [splitAt, if_neg (Ne.symm free.1), ih free.2]

/-- What stands before a separator and after it is cut on its own. -/
theorem splitAt_append (cs rest : List Char) :
    splitAt sep (cs ++ sep :: rest) = splitAt sep cs ++ splitAt sep rest := by
  induction cs with
  | nil => simp [splitAt]
  | cons c cs ih =>
      by_cases here : c = sep
      · simp [splitAt, here, ih]
      · obtain ⟨first, pieces, whole, longer⟩ := splitAt_cons cs here
        obtain ⟨first', pieces', whole', longer'⟩ := splitAt_cons (cs ++ sep :: rest) here
        rw [ih, whole, List.cons_append, List.cons.injEq] at whole'
        rw [List.cons_append, longer', longer, ← whole'.1, ← whole'.2]
        rfl

/-- Texts without separators are the pieces of what they make up. -/
theorem splitAt_flatMap {pieces : List (List Char)} (free : sep ∉ piece)
    (free_pieces : ∀ piece ∈ pieces, sep ∉ piece) :
    splitAt sep (piece ++ pieces.flatMap (sep :: ·)) = piece :: pieces := by
  induction pieces generalizing piece with
  | nil => rw [List.flatMap_nil, List.append_nil, splitAt_of_not_mem free]
  | cons next pieces ih =>
      have here := free_pieces next List.mem_cons_self
      have later := ih here fun piece member => free_pieces piece (List.mem_cons_of_mem _ member)
      rw [List.flatMap_cons, List.cons_append, splitAt_append, splitAt_of_not_mem free, later,
        List.singleton_append]

/-- The pieces of a text, with a separator in front of each but the first, make up the text. -/
theorem eq_of_splitAt {first : List Char} {pieces : List (List Char)}
    (split : splitAt sep cs = first :: pieces) : cs = first ++ pieces.flatMap (sep :: ·) := by
  induction cs generalizing first pieces with
  | nil =>
      obtain ⟨rfl, rfl⟩ := List.cons.inj split
      rfl
  | cons c cs ih =>
      by_cases here : c = sep
      · rw [splitAt, if_pos here] at split
        obtain ⟨rfl, rfl⟩ := List.cons.inj split
        obtain ⟨first, pieces, whole⟩ := List.exists_cons_of_ne_nil (splitAt_ne_nil sep cs)
        rw [whole, List.flatMap_cons, here, List.nil_append, List.cons_append, ← ih whole]
      · obtain ⟨front, others, whole, longer⟩ := splitAt_cons cs here
        obtain ⟨rfl, rfl⟩ := List.cons.inj (longer.symm.trans split)
        rw [List.cons_append, ← ih whole]

/-- Pieces consist of characters of the text that are no separators. -/
theorem of_mem_splitAt (member : piece ∈ splitAt sep cs) :
    ∀ c ∈ piece, c ≠ sep ∧ c ∈ cs := by
  induction cs generalizing piece with
  | nil =>
      rw [splitAt, List.mem_singleton] at member
      simp [member]
  | cons d cs ih =>
      by_cases here : d = sep
      · rw [splitAt, if_pos here, List.mem_cons] at member
        rcases member with rfl | member
        · simp
        · exact fun c hc => (ih member c hc).imp_right (List.mem_cons_of_mem d)
      · obtain ⟨first, pieces, whole, longer⟩ := splitAt_cons cs here
        rw [longer, List.mem_cons] at member
        rcases member with rfl | member
        · intro c hc
          rcases List.mem_cons.mp hc with rfl | hc
          · exact ⟨here, by simp⟩
          · exact (ih (by simp [whole]) c hc).imp_right (List.mem_cons_of_mem d)
        · exact fun c hc => (ih (by simp [whole, member]) c hc).imp_right (List.mem_cons_of_mem d)

end TaggedMemos.Text

namespace TaggedMemos.TagPath

open Text

variable {raw segment : List Char} {segments : List (List Char)} {path : String}

/-! ### Segments -/

/-- A segment of a path: some characters, none of them a slash. -/
def IsSegment (segment : List Char) : Prop :=
  segment ≠ [] ∧ '/' ∉ segment

/-- The pieces of a path are segments made of its characters. -/
theorem of_mem_pieces (member : segment ∈ pieces raw) :
    IsSegment segment ∧ ∀ c ∈ segment, c ∈ raw := by
  obtain ⟨member, filled⟩ := List.mem_filter.mp member
  have chars := of_mem_splitAt member
  refine ⟨⟨by simpa using filled, fun slash => (chars _ slash).1 rfl⟩, fun c hc => (chars c hc).2⟩

/-- A slash in front adds no segment. -/
theorem pieces_slash (raw : List Char) : pieces ('/' :: raw) = pieces raw := by
  simp [pieces, splitAt]

/-- A segment is one piece. -/
theorem pieces_of_isSegment (part : IsSegment segment) : pieces segment = [segment] := by
  rw [pieces, splitAt_of_not_mem part.2, List.filter_cons_of_pos (by simpa using part.1)]
  rfl

/-- The segments before a slash and after it make up the segments of a path. -/
theorem pieces_append (cs raw : List Char) :
    pieces (cs ++ '/' :: raw) = pieces cs ++ pieces raw := by
  rw [pieces, splitAt_append, List.filter_append]
  rfl

/-- Cutting a written path gives its segments. -/
theorem pieces_flatMap (parts : ∀ s ∈ segments, IsSegment s) :
    pieces (segments.flatMap ('/' :: ·)) = segments := by
  have cut : splitAt '/' ([] ++ segments.flatMap ('/' :: ·)) = [] :: segments :=
    splitAt_flatMap List.not_mem_nil fun s member => (parts s member).2
  rw [List.nil_append] at cut
  rw [pieces, cut, List.filter_cons_of_neg (by simp), List.filter_eq_self]
  intro s member
  simpa using (parts s member).1

/-! ### Canonical paths -/

/-- A path with a slash in front of each of its segments, at least one of them. -/
def IsCanonical (path : String) : Prop :=
  ∃ segments, segments ≠ [] ∧ (∀ s ∈ segments, IsSegment s) ∧
    path.toList = segments.flatMap ('/' :: ·)

/-- A canonical path is a slash and the text that stands in its marker. -/
theorem IsCanonical.toList_eq (canonical : IsCanonical path) :
    path.toList = '/' :: (withoutSlash path).toList := by
  obtain ⟨segments, filled, -, written⟩ := canonical
  cases segments with
  | nil => exact absurd rfl filled
  | cons first segments =>
      rw [List.flatMap_cons, List.cons_append] at written
      rw [withoutSlash, written]
      simp [stripPrefix?]

/-- The text in the marker of a canonical path is read as that path. -/
theorem IsCanonical.normalize_withoutSlash (canonical : IsCanonical path) :
    normalize (withoutSlash path) = path := by
  have front := canonical.toList_eq
  obtain ⟨segments, filled, parts, written⟩ := canonical
  have same : pieces (withoutSlash path).toList = segments := by
    rw [← pieces_slash, ← front, written, pieces_flatMap parts]
  rw [normalize, same, ← String.ofList_toList (s := path), written]
  congr 1
  unfold TagPath.written
  split
  · exact absurd rfl filled
  · rfl

/-- A canonical path does not end in a slash. -/
theorem IsCanonical.getLast?_ne (canonical : IsCanonical path) :
    path.toList.getLast? ≠ some '/' := by
  obtain ⟨segments, filled, parts, written⟩ := canonical
  have last := parts _ (List.getLast_mem filled)
  rw [← List.dropLast_concat_getLast filled, List.flatMap_append, List.flatMap_singleton] at written
  intro slash
  rw [written, List.getLast?_append, List.getLast?_cons, Option.some_or] at slash
  cases ends : (segments.getLast filled).getLast? with
  | none => exact last.1 (List.getLast?_eq_none_iff.mp ends)
  | some c =>
      rw [ends] at slash
      obtain rfl : c = '/' := by simpa using slash
      exact last.2 (List.mem_of_getLast? ends)

/-- A path that is not empty and does not end in a slash, unless it is the slash alone. -/
def IsTrimmed (path : String) : Prop :=
  path ≠ "" ∧ (path.toList.getLast? = some '/' → path = "/")

instance (path : String) : Decidable (IsTrimmed path) := by
  unfold IsTrimmed
  infer_instance

/-- A canonical path has no slash at its end. -/
theorem IsCanonical.isTrimmed (canonical : IsCanonical path) : IsTrimmed path := by
  refine ⟨?_, fun slash => absurd slash canonical.getLast?_ne⟩
  rintro rfl
  simpa using canonical.toList_eq

/-- A normalized path consists of slashes and of characters of the text it comes from. -/
theorem of_mem_normalize {raw : String} {c : Char} (member : c ∈ (normalize raw).toList) :
    c = '/' ∨ c ∈ raw.toList := by
  rw [normalize, String.toList_ofList] at member
  unfold written at member
  split at member
  · exact .inl (by simpa using member)
  · obtain ⟨segment, part, member⟩ := List.mem_flatMap.mp member
    rcases List.mem_cons.mp member with rfl | member
    · exact .inl rfl
    · exact .inr ((of_mem_pieces part).2 c member)

/-- A normalized path begins with a slash. -/
theorem head?_normalize (raw : String) : (normalize raw).toList.head? = some '/' := by
  rw [normalize, String.toList_ofList]
  cases pieces raw.toList with
  | nil => rfl
  | cons first segments => rfl

/-- A normalized path is canonical, or it has no segments. -/
theorem normalize_cases (raw : String) : normalize raw = "/" ∨ IsCanonical (normalize raw) := by
  by_cases none : pieces raw.toList = []
  · left
    rw [normalize, none]
    rfl
  · refine .inr ⟨pieces raw.toList, none, fun s member => (of_mem_pieces member).1, ?_⟩
    rw [normalize, String.toList_ofList, written]
    exact none

/-! ### Paths below another one -/

/-- A path is at or below another one if it is that path, or begins with it and a slash. -/
theorem isSameOrBelow_iff {ancestor path : String} :
    isSameOrBelow ancestor path = true ↔
      path = ancestor ∨ ancestor.toList ++ ['/'] <+: path.toList := by
  rw [isSameOrBelow, Bool.or_eq_true, beq_iff_eq]
  refine or_congr_right ⟨fun below => ?_, fun ⟨rest, below⟩ => ?_⟩
  · cases stripped : stripPrefix? ancestor.toList path.toList with
    | none => simp [stripped] at below
    | some rest =>
        rw [stripped, beq_iff_eq] at below
        obtain ⟨rest, rfl⟩ := List.head?_eq_some_iff.mp below
        exact ⟨rest, by rw [stripPrefix?_eq_some.mp stripped]; simp⟩
  · have stripped : stripPrefix? ancestor.toList path.toList = some ('/' :: rest) :=
      stripPrefix?_eq_some.mpr (by rw [← below]; simp)
    rw [stripped]
    rfl

/-- The parent of a path stands before its last slash, and is not empty. -/
theorem parent?_eq_some {parent : String} (above : parent? path = some parent) :
    parent ≠ "" ∧ ∃ last, path.toList = parent.toList ++ '/' :: last ∧ '/' ∉ last := by
  rw [parent?] at above
  split at above
  · next slash c before reversed =>
      obtain rfl := Option.some.inj above
      have first := List.head?_dropWhile_not (fun c => decide (c ≠ '/')) path.toList.reverse
      have split := List.takeWhile_append_dropWhile (p := fun c => decide (c ≠ '/'))
        (l := path.toList.reverse)
      have free := List.all_takeWhile (p := fun c => decide (c ≠ '/')) (l := path.toList.reverse)
      rw [reversed] at first split
      generalize path.toList.reverse.takeWhile (fun c => decide (c ≠ '/')) = last at split free
      obtain rfl : slash = '/' := by simpa using first
      refine ⟨by simp, last.reverse, ?_, fun here => ?_⟩
      · rw [← List.reverse_reverse path.toList, ← split]
        simp
      · simpa using List.all_eq_true.mp free '/' (List.mem_reverse.mp here)
  · cases above

/-- The parent of a path is what stands before its last slash, unless nothing does. -/
theorem parent?_eq_some_iff {path parent : String} :
    parent? path = some parent ↔
      parent ≠ "" ∧ ∃ last, path.toList = parent.toList ++ '/' :: last ∧ '/' ∉ last := by
  refine ⟨parent?_eq_some, fun ⟨filled, last, whole, free⟩ => ?_⟩
  have reversed : path.toList.reverse.dropWhile (· ≠ '/') = '/' :: parent.toList.reverse := by
    have early : ∀ c ∈ last.reverse, decide (c ≠ '/') = true := fun c member =>
      decide_eq_true fun slash => free (slash ▸ List.mem_reverse.mp member)
    rw [whole, List.reverse_append, List.reverse_cons, List.append_assoc,
      List.dropWhile_append_of_pos early]
    simp
  cases backwards : parent.toList.reverse with
  | nil => exact absurd (String.toList_inj.mp (by simpa using backwards)) filled
  | cons c before =>
      rw [parent?, reversed, backwards]
      simp only
      rw [← backwards, List.reverse_reverse, String.ofList_toList]

/-! ### Paths directly below another one -/

/-- A path is directly below another one if it goes on from it with a slash and one segment. -/
theorem isDirectChild_iff {parent other : String} :
    isDirectChild parent other = true ↔
      ∃ last, other.toList = parent.toList ++ '/' :: last ∧ IsSegment last := by
  have divided : ∀ rest, ((stripPrefix? parent.toList other.toList).bind
      (stripPrefix? ['/'])) = some rest ↔ other.toList = parent.toList ++ '/' :: rest := by
    intro rest
    rw [Option.bind_eq_some_iff]
    refine ⟨fun ⟨below, stripped, slash⟩ => ?_, fun whole => ⟨'/' :: rest, ?_, rfl⟩⟩
    · rw [stripPrefix?_eq_some.mp stripped, stripPrefix?_eq_some.mp slash, List.singleton_append]
    · exact stripPrefix?_eq_some.mpr whole
  rw [isDirectChild]
  split
  · next rest stripped =>
      have whole := (divided rest).mp stripped
      simp only [Bool.and_eq_true, Bool.not_eq_true', List.isEmpty_eq_false_iff,
        List.contains_eq_mem, decide_eq_false_iff_not]
      refine ⟨fun part => ⟨rest, whole, part⟩, fun ⟨last, whole', part⟩ => ?_⟩
      rw [whole, List.append_cancel_left_eq, List.cons.injEq] at whole'
      exact whole'.2 ▸ part
  · next none =>
      refine ⟨fun absurd => (Bool.false_ne_true absurd).elim, fun ⟨last, whole, _⟩ => ?_⟩
      rw [(divided last).mpr whole] at none
      cases none

/-- The test for a path directly below another one and the search for the parent say the same, of
paths that have no slash at their end. -/
theorem isDirectChild_iff_parent? {parent other : String} (filled : parent ≠ "")
    (trimmed : other.toList.getLast? = some '/' → other = "/") :
    isDirectChild parent other = true ↔ parent? other = some parent := by
  rw [isDirectChild_iff, parent?_eq_some_iff]
  refine ⟨fun ⟨last, whole, part⟩ => ⟨filled, last, whole, part.2⟩, ?_⟩
  rintro ⟨-, last, whole, free⟩
  refine ⟨last, whole, ?_, free⟩
  rintro rfl
  obtain rfl := trimmed (by simp [whole])
  cases front : parent.toList with
  | nil => exact filled (String.toList_inj.mp (by simpa using front))
  | cons c cs => simp [front] at whole

end TaggedMemos.TagPath
