import Mathlib.Data.List.Basic
import TaggedMemos.Proofs.PathGrammar
import TaggedMemos.Tag.Marker

/-!
# Replacing Markers

Replacement goes through a text from left to right, and leaves alone what it has written. In general
it depends on where it begins how a text is cut into occurrences. A marker however has a number sign
at its front and nowhere else, so an occurrence begins at a number sign of the text and ends before
the next one. The pieces of a text between its number signs are therefore replaced each on its own:
a piece that begins with the name in the old marker gets the new one in its place.

Names have no number signs, so the new text falls into as many pieces as the old one. If no piece
had begun with the new name, those that do now are the ones that were renamed, and renaming them
back restores the text. It does not matter whether one name begins with the other.

## Main results

* `replaced_induction`: what a replacement does with a text, step by step.
* `replaceAll_append`: a text may be cut before a sign.
* `replaceAll_pieces`: pieces are replaced each on its own.
* `replaceMarker_by_pieces`: what a renaming makes of a text, and how it is undone.
-/

namespace TaggedMemos.Text

variable {old new name name' text rest piece first : List Char} {sign c : Char}
variable {pieces : List (List Char)}

/-! ### Replacement step by step -/

/-- What is skipped does not count. -/
theorem replaceFrom_eq_drop (skip : Nat) :
    replaceFrom old new skip text = replaceAll old new (text.drop skip) := by
  induction skip generalizing text with
  | zero => rfl
  | succ skip ih =>
      cases text with
      | nil => rfl
      | cons c text => rw [replaceFrom, List.drop_succ_cons, ih]

/-- An occurrence that a text begins with is replaced. -/
theorem replaceAll_append_self (filled : old ≠ []) :
    replaceAll old new (old ++ rest) = new ++ replaceAll old new rest := by
  cases old with
  | nil => exact absurd rfl filled
  | cons c old =>
      have here : (c :: old).isPrefixOf (c :: (old ++ rest)) = true :=
        List.isPrefixOf_iff_prefix.mpr (List.prefix_append (c :: old) rest)
      rw [List.cons_append, replaceAll, replaceFrom, if_pos here, replaceFrom_eq_drop,
        List.length_cons, Nat.add_sub_cancel, List.drop_left]

/-- A character at which no occurrence begins is kept. -/
theorem replaceAll_cons (absent : ¬ old <+: c :: text) :
    replaceAll old new (c :: text) = c :: replaceAll old new text := by
  rw [replaceAll, replaceFrom, if_neg (by rwa [List.isPrefixOf_iff_prefix])]
  rfl

/-- **What a replacement does with a text**: it ends, or goes on after an occurrence, or after a
character at which none begins. -/
theorem replaced_induction {P : List Char → Prop} (old : List Char) (filled : old ≠ [])
    (nil : P []) (found : ∀ rest, P rest → P (old ++ rest))
    (other : ∀ c rest, ¬ old <+: c :: rest → P rest → P (c :: rest)) (text : List Char) :
    P text := by
  induction size : text.length using Nat.strongRecOn generalizing text with
  | ind n ih =>
      cases text with
      | nil => exact nil
      | cons c text =>
          by_cases here : old <+: c :: text
          · obtain ⟨rest, whole⟩ := here
            have shorter : rest.length < n := by
              have some_char := List.length_pos_iff.mpr filled
              rw [← size, ← whole, List.length_append]
              omega
            exact whole ▸ found rest (ih _ shorter rest rfl)
          · exact other c text here (ih _ (by simp [← size]) text rfl)

/-- A text without an occurrence stays as it is. -/
theorem replaceAll_eq_self (absent : ¬ old <:+: text) : replaceAll old new text = text := by
  induction text with
  | nil => rfl
  | cons c text ih =>
      rw [List.infix_cons_iff, not_or] at absent
      rw [replaceAll_cons absent.1, ih absent.2]

/-- Replacing by what is no longer makes no text longer. -/
theorem length_replaceFrom_le (shorter : new.length ≤ old.length)
    (skip : Nat) (text : List Char) :
    (replaceFrom old new skip text).length ≤ text.length - skip := by
  induction skip, text using replaceFrom.induct old with
  | case1 skip => simp [replaceFrom]
  | case2 skip c rest ih => simpa [replaceFrom] using ih
  | case3 c rest here ih =>
      have whole : old.length ≤ rest.length + 1 := by
        simpa using (List.isPrefixOf_iff_prefix.mp here).length_le
      rw [replaceFrom, if_pos here, List.length_append, List.length_cons]
      omega
  | case4 c rest other ih =>
      rw [replaceFrom, if_neg other, List.length_cons, List.length_cons]
      omega

/-- A whole text gets no longer by such a replacement. -/
theorem length_replaceAll_le (shorter : new.length ≤ old.length)
    (text : List Char) : (replaceAll old new text).length ≤ text.length :=
  length_replaceFrom_le shorter 0 text

/-! ### Pieces between signs -/

/-- A name ends before a sign. -/
theorem prefix_append_iff (free : sign ∉ name) (edge : ∀ c ∈ rest.head?, c = sign) :
    name <+: text ++ rest ↔ name <+: text := by
  refine ⟨fun ⟨more, whole⟩ => ?_, fun begins => begins.trans (List.prefix_append _ _)⟩
  rcases List.append_eq_append_iff.mp whole with ⟨tail, longer, -⟩ | ⟨tail, shorter, onward⟩
  · exact ⟨tail, longer.symm⟩
  · cases tail with
    | nil => simp [shorter]
    | cons c tail =>
        obtain rfl : c = sign := edge c (by simp [onward])
        exact absurd (shorter ▸ List.mem_append_right _ List.mem_cons_self) free

/-- A text may be cut before a sign, and each part replaced on its own. -/
theorem replaceAll_append (free : sign ∉ name) (edge : ∀ c ∈ rest.head?, c = sign) :
    replaceAll (sign :: name) new (text ++ rest) =
      replaceAll (sign :: name) new text ++ replaceAll (sign :: name) new rest := by
  have filled : sign :: name ≠ [] := List.cons_ne_nil _ _
  induction text using replaced_induction (sign :: name) filled with
  | nil => rfl
  | found text ih =>
      rw [List.append_assoc, replaceAll_append_self filled, ih, replaceAll_append_self filled,
        List.append_assoc]
  | other c text absent ih =>
      have absent' : ¬ sign :: name <+: c :: (text ++ rest) := by
        rw [List.cons_prefix_cons] at absent ⊢
        rwa [prefix_append_iff free edge]
      rw [List.cons_append, replaceAll_cons absent', ih, replaceAll_cons absent, List.cons_append]

/-- A text without signs has nothing to replace. -/
theorem replaceAll_of_not_mem (free : sign ∉ text) :
    replaceAll (sign :: name) new text = text :=
  replaceAll_eq_self fun inside => free (inside.subset List.mem_cons_self)

/-- A piece with the name that it begins with replaced by another one. -/
def renamedPiece (name name' piece : List Char) : List Char :=
  match stripPrefix? name piece with
  | some rest => name' ++ rest
  | none => piece

/-- A piece that begins with the name is renamed. -/
theorem renamedPiece_append : renamedPiece name name' (name ++ rest) = name' ++ rest := by
  rw [renamedPiece, stripPrefix?_eq_some.mpr rfl]

/-- Any other piece stays as it is. -/
theorem renamedPiece_of_not_begins (other : ¬ name <+: piece) :
    renamedPiece name name' piece = piece := by
  rw [renamedPiece]
  split
  · next rest stripped => exact absurd ⟨rest, (stripPrefix?_eq_some.mp stripped).symm⟩ other
  · rfl

/-- A piece is renamed back, if it did not begin with the new name. -/
theorem renamedPiece_renamedPiece (other : ¬ name' <+: piece) :
    renamedPiece name' name (renamedPiece name name' piece) = piece := by
  by_cases begins : name <+: piece
  · obtain ⟨rest, rfl⟩ := begins
    rw [renamedPiece_append, renamedPiece_append]
  · rw [renamedPiece_of_not_begins begins, renamedPiece_of_not_begins other]

/-- A renamed piece has no signs if neither part has any. -/
theorem not_mem_renamedPiece (free : sign ∉ name') (free' : sign ∉ piece) :
    sign ∉ renamedPiece name name' piece := by
  by_cases begins : name <+: piece
  · obtain ⟨rest, rfl⟩ := begins
    rw [renamedPiece_append]
    rw [List.mem_append, not_or] at free' ⊢
    exact ⟨free, free'.2⟩
  · rwa [renamedPiece_of_not_begins begins]

/-- A sign and the piece after it: the name that the piece begins with is replaced. -/
theorem replaceAll_sign_piece (free : sign ∉ piece) :
    replaceAll (sign :: name) (sign :: name') (sign :: piece) =
      sign :: renamedPiece name name' piece := by
  by_cases begins : name <+: piece
  · obtain ⟨rest, rfl⟩ := begins
    rw [List.mem_append, not_or] at free
    rw [← List.cons_append, replaceAll_append_self (List.cons_ne_nil _ _), List.cons_append,
      replaceAll_of_not_mem free.2, renamedPiece_append]
  · have absent : ¬ sign :: name <+: sign :: piece := by
      rwa [List.cons_prefix_cons, and_iff_right rfl]
    rw [replaceAll_cons absent, replaceAll_of_not_mem free, renamedPiece_of_not_begins begins]

/-- Pieces with a sign in front of each begin with a sign. -/
theorem head?_flatMap_cons (sign : Char) (pieces : List (List Char)) :
    ∀ c ∈ (pieces.flatMap (sign :: ·)).head?, c = sign := by
  cases pieces with
  | nil => simp
  | cons piece pieces => simp [eq_comm]

/-- **Pieces are replaced each on its own.** -/
theorem replaceAll_pieces (free : sign ∉ name) (free_first : sign ∉ first)
    (free_pieces : ∀ piece ∈ pieces, sign ∉ piece) :
    replaceAll (sign :: name) (sign :: name') (first ++ pieces.flatMap (sign :: ·)) =
      first ++ (pieces.map (renamedPiece name name')).flatMap (sign :: ·) := by
  have each : replaceAll (sign :: name) (sign :: name') (pieces.flatMap (sign :: ·)) =
      (pieces.map (renamedPiece name name')).flatMap (sign :: ·) := by
    induction pieces with
    | nil => rfl
    | cons piece pieces ih =>
        have here := free_pieces piece List.mem_cons_self
        have later := ih fun piece member => free_pieces piece (List.mem_cons_of_mem _ member)
        rw [List.flatMap_cons, replaceAll_append free (head?_flatMap_cons sign pieces), later,
          replaceAll_sign_piece here, List.map_cons, List.flatMap_cons]
  rw [replaceAll_append free (head?_flatMap_cons sign pieces), replaceAll_of_not_mem free_first,
    each]

end TaggedMemos.Text

namespace TaggedMemos.Tag

open Text

variable {old new path typed typed' : String}

/-- The name in a marker has no number sign, if the path is validated. -/
theorem not_mem_withoutSlash (accepted : TagPath.validate typed = .ok path) :
    '#' ∉ (TagPath.withoutSlash path).toList := by
  obtain ⟨canonical, chars⟩ := TagPath.isCanonical_of_validate accepted
  intro sign
  exact (chars '#' (canonical.toList_eq ▸ List.mem_cons_of_mem _ sign)).2 rfl

/-- A marker is a number sign with the path behind it, less the slash. -/
theorem toList_marker (path : String) :
    (TagPath.marker path).toList = '#' :: (TagPath.withoutSlash path).toList := by
  rw [TagPath.marker, String.toList_ofList]

/-- A marker is replaced by another wherever it is found. -/
theorem toList_replaceMarker (content old new : String) :
    (replaceMarker content old new).toList =
      replaceAll ('#' :: (TagPath.withoutSlash old).toList)
        ('#' :: (TagPath.withoutSlash new).toList) content.toList := by
  rw [replaceMarker, String.toList_ofList, toList_marker, toList_marker]

/-- A piece of a text after a number sign, with the path that it begins with renamed. -/
def renamed (old new : String) (piece : List Char) : List Char :=
  renamedPiece (TagPath.withoutSlash old).toList (TagPath.withoutSlash new).toList piece

/-- A piece that does not begin with the new path is renamed back. -/
theorem renamed_renamed {piece : List Char}
    (other : ¬ (TagPath.withoutSlash new).toList <+: piece) :
    renamed new old (renamed old new piece) = piece := by
  rw [renamed, renamed, renamedPiece_renamedPiece other]

/-- **A renaming goes piece by piece.** The number signs of a text cut it into pieces. The one in
front of the first number sign is kept, and in each of the others the old path is replaced by the
new one, if the piece begins with it. If the new marker did not occur in the text, then renaming
back restores it. -/
theorem replaceMarker_by_pieces (accepted : TagPath.validate typed = .ok old)
    (accepted' : TagPath.validate typed' = .ok new) (content : String) :
    ∃ first pieces, splitAt '#' content.toList = first :: pieces ∧
      content.toList = first ++ pieces.flatMap ('#' :: ·) ∧
      splitAt '#' (replaceMarker content old new).toList =
        first :: pieces.map (renamed old new) ∧
      (replaceMarker content old new).toList =
        first ++ (pieces.map (renamed old new)).flatMap ('#' :: ·) ∧
      (¬ (TagPath.marker new).toList <:+: content.toList →
        replaceMarker (replaceMarker content old new) new old = content) := by
  obtain ⟨first, pieces, split⟩ :=
    List.exists_cons_of_ne_nil (splitAt_ne_nil '#' content.toList)
  have whole := eq_of_splitAt split
  have free := not_mem_withoutSlash accepted
  have free' := not_mem_withoutSlash accepted'
  have free_pieces : ∀ piece ∈ first :: pieces, '#' ∉ piece := fun piece member sign =>
    (of_mem_splitAt (split ▸ member) '#' sign).1 rfl
  obtain ⟨free_first, free_pieces⟩ := List.forall_mem_cons.mp free_pieces
  have free_renamed : ∀ piece ∈ pieces.map (renamed old new), '#' ∉ piece := by
    intro _ renamed_piece
    obtain ⟨piece, member, rfl⟩ := List.mem_map.mp renamed_piece
    rw [renamed]
    exact not_mem_renamedPiece free' (free_pieces piece member)
  have once : (replaceMarker content old new).toList =
      first ++ (pieces.map (renamed old new)).flatMap ('#' :: ·) := by
    rw [toList_replaceMarker, whole]
    exact replaceAll_pieces free free_first free_pieces
  refine ⟨first, pieces, split, whole, ?_, once, fun absent => ?_⟩
  · rw [once, splitAt_flatMap free_first free_renamed]
  · have other : ∀ piece ∈ pieces, ¬ (TagPath.withoutSlash new).toList <+: piece := by
      rintro piece member ⟨rest, rfl⟩
      refine absent ?_
      rw [toList_marker, whole]
      obtain ⟨before, after, rfl⟩ := List.append_of_mem member
      exact ⟨first ++ before.flatMap ('#' :: ·), rest ++ after.flatMap ('#' :: ·), by simp⟩
    have back : (pieces.map (renamed old new)).map (renamed new old) = pieces := by
      rw [List.map_map]
      refine (List.map_congr_left fun piece member => ?_).trans (List.map_id pieces)
      rw [Function.comp_apply, renamed_renamed (other piece member), id_eq]
    apply String.toList_inj.mp
    calc (replaceMarker (replaceMarker content old new) new old).toList
      _ = first ++ ((pieces.map (renamed old new)).map (renamed new old)).flatMap ('#' :: ·) := by
          rw [toList_replaceMarker, once]
          exact replaceAll_pieces free' free_first free_renamed
      _ = content.toList := by rw [back, whole]

/-- The old path is the beginning of the new one, and of other tags. Only what was renamed is
renamed back. -/
theorem replaceMarker_by_pieces_longer :
    let content := "x #old/a ##old #ol `#older`"
    TagPath.validate "old" = .ok "/old" ∧ TagPath.validate "old/er/" = .ok "/old/er" ∧
      replaceMarker content "/old" "/old/er" = "x #old/er/a ##old/er #ol `#old/erer`" ∧
      replaceMarker (replaceMarker content "/old" "/old/er") "/old/er" "/old" = content := by
  intro content
  have accepted : TagPath.validate "old" = .ok "/old" := by decide +kernel
  have accepted' : TagPath.validate "old/er/" = .ok "/old/er" := by decide +kernel
  have pieces : splitAt '#' content.toList =
      ["x ".toList, "old/a ".toList, [], "old ".toList, "ol `".toList, "older`".toList] := by
    decide +kernel
  have absent : ¬ (TagPath.marker "/old/er").toList <:+: content.toList := by decide +kernel
  obtain ⟨first, others, split, -, -, once, back⟩ :=
    replaceMarker_by_pieces accepted accepted' content
  obtain ⟨rfl, rfl⟩ := List.cons.inj (pieces.symm.trans split)
  refine ⟨accepted, accepted', String.toList_inj.mp (once.trans ?_), back absent⟩
  decide +kernel

end TaggedMemos.Tag
