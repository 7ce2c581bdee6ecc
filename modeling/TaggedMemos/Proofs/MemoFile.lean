import TaggedMemos.CommandLine.Run
import TaggedMemos.Proofs.JsonText
import TaggedMemos.Proofs.WrittenForm

/-!
# The Memo File Is Read Back

What one run saves is what the next one finds: every memo of the file comes back in its place,
field for field. The writer and the reader of the file differ in shape. The parent of a memo that
has none is left out and comes back as a default, an empty collection is an array without items
and no blank file, and the reader takes records in other forms as well. So each record is read by
looking its keys up (`record?_record`), and the rest is what texts, numbers, identifiers and
timestamps are read back as.

A memo can be kept (`Memo.IsStorable`) when its owner has a number of 32 bits and its times are
plain. Nothing is asked of the texts.

## Main results

* `Memo.ofJson?_toJson`: a memo is read back from its record.
* `Collection.ofFile?_toFile`: a collection is read back from its file.
* `storedMemos_toFile`: a run finds the collection that was saved.
-/

namespace TaggedMemos

open Json Text

/-! ### Records -/

namespace Json.Value

/-- A list of texts has whole numbers only, having none. -/
theorem isWhole_strings (texts : List String) : (strings texts).IsWhole := by
  refine .array fun item mem => ?_
  obtain ⟨s, -, rfl⟩ := List.mem_map.mp mem
  exact .text s

/-- A record has whole numbers only if its fields do. -/
theorem isWhole_record {fields : List (String × Value)}
    (each : ∀ field ∈ fields, field.2.IsWhole) : (record fields).IsWhole := by
  refine .object (fun field mem => ?_) fun field mem => ?_ <;>
    obtain ⟨original, kept, rfl⟩ := List.mem_map.mp mem
  · rfl
  · exact each original kept

/-- A text is read back. -/
theorem string?_string (s : String) : (string s).string? = some s := rfl

/-- A list of texts is read back. -/
theorem strings?_strings (texts : List String) : (strings texts).strings? = some texts :=
  mapM_map_eq_some fun _ _ => rfl

/-- Keys that differ have one value each. -/
theorem valuesOf_eq_lookup {fields : List (String × Value)}
    (distinct : (fields.map Prod.fst).Nodup) (key : String) :
    valuesOf key (fields.map fun (key, value) => (some key, value)) =
      (fields.lookup key).toList := by
  simp only [valuesOf, List.filterMap_map, Function.comp_def, Option.some.injEq]
  induction fields with
  | nil => rfl
  | cons field fields ih =>
    obtain ⟨k, value⟩ := field
    obtain ⟨fresh, distinct⟩ := List.nodup_cons.mp distinct
    have others := ih distinct
    by_cases same : k = key
    · subst same
      have absent : fields.lookup k = none := List.lookup_eq_none_iff.mpr fun field mem =>
        bne_iff_ne.mpr fun same => fresh (List.mem_map.mpr ⟨field, mem, same.symm⟩)
      simp only [List.filterMap_cons, if_true, others, absent, List.lookup_cons_self,
        Option.toList_none, Option.toList_some]
    · have skipped : (key == k) = false := beq_eq_false_iff_ne.mpr (Ne.symm same)
      simp only [List.filterMap_cons, same, if_false, others, List.lookup_cons, skipped]

/-- A record whose keys differ has what a lookup of the keys finds. -/
theorem record?_record {fields : List (String × Value)} (distinct : (fields.map Prod.fst).Nodup)
    (keys : List String) :
    (record fields).record? keys = some (keys.map fun key => fields.lookup key) := by
  have known : (fields.map fun (key, value) => (some key, value)).all (·.1.isSome) := by simp
  rw [record, record?, if_pos known]
  refine mapM_eq_some_map fun key _ => ?_
  rw [valuesOf_eq_lookup distinct]
  cases fields.lookup key <;> rfl

end Json.Value

/-! ### Memos -/

/-- The properties of a memo are read back. -/
theorem Property.ofJson?_toJson (p : Property) : Property.ofJson? p.toJson = some p := by
  rw [Property.ofJson?, Property.toJson, Value.record?_record (by simp)]
  simp [List.lookup_cons, fieldOr, Value.bool?, Value.strings?_strings]

/-- A payload is read back. -/
theorem Payload.ofJson?_toJson (p : Payload) : Payload.ofJson? p.toJson = some p := by
  rw [Payload.ofJson?, Payload.toJson, Value.record?_record (by simp)]
  simp [List.lookup_cons, fieldOr, Value.strings?_strings, Property.ofJson?_toJson]

/-- Whether a memo can be kept in the file: its owner has a number of 32 bits, and its times have
a written form of fixed width. -/
structure Memo.IsStorable (m : Memo) : Prop where
  /-- The number of the owner is in range. -/
  creator : isUserId m.creator
  /-- The time of creation is no leap second and has a year of four digits. -/
  created : m.created.IsPlain
  /-- So is the time of the last change. -/
  updated : m.updated.IsPlain

/-- An identifier is read back. -/
theorem MemoId.ofJson?_toText (id : MemoId) : MemoId.ofJson? (.string id.toText) = some id := by
  rw [MemoId.ofJson?, Value.string, Value.string?, Option.bind_some, MemoId.ofText?_toText]

/-- An identifier is read back where it may be missing. -/
theorem MemoId.optionOfJson?_toText (id : MemoId) :
    MemoId.optionOfJson? (.string id.toText) = some (some id) := by
  rw [MemoId.optionOfJson?, MemoId.ofJson?_toText, Option.map_some]
  rintro ⟨⟩

/-- An instant with a written form of fixed width is read back. -/
theorem Timestamp.ofJson?_toText {t : Timestamp} (plain : t.IsPlain) :
    Timestamp.ofJson? (.string t.toText) = some t := by
  rw [Timestamp.ofJson?, Value.string, Value.string?, Option.bind_some,
    Timestamp.ofText?_toText plain]

/-- The number of a user is read back. -/
theorem userIdOfJson?_number {n : Int} (user : isUserId n) :
    userIdOfJson? (.number n) = some n := by
  rw [userIdOfJson?, Value.integer?, Option.filter_some, if_pos user]

/-- **A memo is read back from its record**, whether it has a parent or not. -/
theorem Memo.ofJson?_toJson {m : Memo} (storable : m.IsStorable) :
    Memo.ofJson? m.toJson = some m := by
  obtain ⟨id, creator, parent, content, payload, created, updated⟩ := m
  have user : userIdOfJson? (.number creator) = some creator :=
    userIdOfJson?_number storable.creator
  have written := Timestamp.ofJson?_toText storable.created
  have rewritten := Timestamp.ofJson?_toText storable.updated
  cases parent with
  | none =>
    rw [Memo.ofJson?, Memo.toJson, Value.record?_record (by simp)]
    simp [List.lookup_cons, fieldOr, MemoId.ofJson?_toText, user, Value.string?_string,
      Payload.ofJson?_toJson, written, rewritten]
  | some parent =>
    rw [Memo.ofJson?, Memo.toJson, Value.record?_record (by simp)]
    simp [List.lookup_cons, fieldOr, MemoId.ofJson?_toText, MemoId.optionOfJson?_toText, user,
      Value.string?_string, Payload.ofJson?_toJson, written, rewritten]

/-! ### The file -/

/-- Properties have no numbers that are not whole. -/
theorem Property.isWhole_toJson (p : Property) : p.toJson.IsWhole := by
  refine Value.isWhole_record ?_
  simp only [List.forall_mem_cons, List.not_mem_nil, false_imp_iff, implies_true, and_true]
  exact ⟨.bool _, .bool _, .bool _, .bool _, Value.isWhole_strings _⟩

/-- Payloads have no numbers that are not whole. -/
theorem Payload.isWhole_toJson (p : Payload) : p.toJson.IsWhole := by
  refine Value.isWhole_record ?_
  simp only [List.forall_mem_cons, List.not_mem_nil, false_imp_iff, implies_true, and_true]
  exact ⟨Value.isWhole_strings _, p.property.isWhole_toJson⟩

/-- Memos have no numbers that are not whole. -/
theorem Memo.isWhole_toJson (m : Memo) : m.toJson.IsWhole := by
  refine Value.isWhole_record ?_
  simp only [List.forall_mem_append, List.forall_mem_cons, List.forall_mem_map, List.not_mem_nil,
    false_imp_iff, implies_true, and_true]
  exact ⟨⟨⟨.text _, .number _⟩, fun _ _ => .text _⟩, .text _, m.payload.isWhole_toJson, .text _,
    .text _⟩

/-- The file of a collection is not blank: it has the brackets of an array at least. -/
theorem not_isBlankText_writtenAt_array (items : List Value) (level : Nat) :
    isBlankText ((Value.array items).writtenAt level) = false := by
  cases items <;> rfl

/-- **A collection is read back from its file**, memo by memo. -/
theorem Collection.ofFile?_toFile {memos : Collection} (storable : ∀ m ∈ memos, m.IsStorable) :
    Collection.ofFile? memos.toFile = some memos := by
  have whole : (Value.array (memos.map Memo.toJson)).IsWhole := by
    refine .array fun item mem => ?_
    obtain ⟨m, -, rfl⟩ := List.mem_map.mp mem
    exact m.isWhole_toJson
  have each : (memos.map Memo.toJson).mapM Memo.ofJson? = some memos :=
    mapM_map_eq_some fun m mem => Memo.ofJson?_toJson (storable m mem)
  rw [Collection.ofFile?, Collection.toFile, Value.toText, String.toList_ofList]
  simp only [not_isBlankText_writtenAt_array, Bool.false_eq_true, if_false,
    Value.ofChars?_writtenAt whole, each]

/-- **What was saved is what is found**: a run finds in the memo file the collection that an
earlier one kept there, every memo in its place and unchanged. -/
theorem CommandLine.storedMemos_toFile (memos : Collection)
    (storable : ∀ m ∈ memos, m.IsStorable) :
    storedMemos (.ok (some memos.toFile)) = .ok memos := by
  rw [storedMemos, Collection.ofFile?_toFile storable]

/-- A memo whose texts need every kind of escape, kept in the first year that has four digits, and
a comment on it, kept in the last nanosecond of the last such year. -/
def keptMemos : Collection :=
  [{ id := .ofNat 0x00112233445566778899aabbccddeeff
     creator := -2147483648
     content := "say \"#hi\" \\ \x00\x08\x0c\n\r\t\x1f\x7f \u2028 😀"
     payload :=
       { tags := ["/hi", "/\"/\n"]
         property := { hasTaskList := true, references := ["\u2029", ""] } }
     created := ⟨⟨0, 2, 29⟩, 0, 0⟩
     updated := ⟨⟨0, 2, 29⟩, 3599, 120000000⟩ },
   { id := .ofNat 1
     creator := 0
     parent := some (.ofNat 0x00112233445566778899aabbccddeeff)
     content := ""
     created := ⟨⟨9999, 12, 31⟩, 86399, 999999000⟩
     updated := ⟨⟨9999, 12, 31⟩, 86399, 999999999⟩ }]

/-- These two memos are kept in a file, and read back. -/
theorem CommandLine.storedMemos_toFile_keptMemos :
    (∀ m ∈ keptMemos, m.IsStorable) ∧
      storedMemos (.ok (some (Collection.toFile keptMemos))) = .ok keptMemos := by
  have storable : ∀ m ∈ keptMemos, m.IsStorable := by
    simp only [keptMemos, List.forall_mem_cons, List.not_mem_nil, false_imp_iff, implies_true,
      and_true]
    exact ⟨⟨by decide, by decide, by decide⟩, ⟨by decide, by decide, by decide⟩⟩
  exact ⟨storable, storedMemos_toFile keptMemos storable⟩

end TaggedMemos
