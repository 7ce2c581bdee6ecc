import TaggedMemos.Json.Reader
import TaggedMemos.Proofs.JsonToken

/-!
# Written Values Are Read Back

A value is written as a text and read by way of tokens, so the tokens that a value consists of
(`Value.tokens`) stand between the two. That its text has these tokens is shown from the back to
the front (`Spells`): a blank or a mark may stand in front of anything, while a value needs a text
behind it that does not lengthen a number. That the tokens make the value is shown along the
reader, whose steps are counted: two for every token suffice.

Both go by induction over the values that a text can say in full (`Value.IsWhole`): a number whose
value is not known and a text that is none are written as something else.

## Main results

* `Value.spells_writtenAt`: the text of a value has the tokens of the value.
* `Value.reads`: the tokens of a value make the value.
* `Value.ofChars?_writtenAt`: a written value is read back.
-/

namespace TaggedMemos.Json

/-! ### The tokens of a value -/

mutual

/-- The tokens that a value consists of. -/
def Value.tokens : Value → List Token
  | .null => [.null]
  | .bool b => [.bool b]
  | .number n => [.number n]
  | .text s => [.text s]
  | .array [] => [.openArray, .closeArray]
  | .array (item :: items) =>
    .openArray :: (item.tokens ++ (itemTokens items ++ [.closeArray]))
  | .object [] => [.openObject, .closeObject]
  | .object (field :: fields) =>
    .openObject :: (fieldTokens field ++ (fieldsTokens fields ++ [.closeObject]))

/-- The tokens of the items after the first one. -/
def itemTokens : List Value → List Token
  | [] => []
  | item :: items => .comma :: (item.tokens ++ itemTokens items)

/-- The tokens of a field. -/
def fieldTokens : Option String × Value → List Token
  | (key, value) => .text key :: .colon :: value.tokens

/-- The tokens of the fields after the first one. -/
def fieldsTokens : List (Option String × Value) → List Token
  | [] => []
  | field :: fields => .comma :: (fieldTokens field ++ fieldsTokens fields)

end

/-- Whether everything in a value can be written: all numbers are integers and all texts, those
of the keys included, are known. -/
inductive Value.IsWhole : Value → Prop
  | null : IsWhole .null
  | bool (b : Bool) : IsWhole (.bool b)
  | number (n : Int) : IsWhole (.number (some n))
  | text (s : String) : IsWhole (.text (some s))
  | array {items : List Value} (each : ∀ item ∈ items, IsWhole item) : IsWhole (.array items)
  | object {fields : List (Option String × Value)} (keys : ∀ field ∈ fields, field.1.isSome)
      (each : ∀ field ∈ fields, IsWhole field.2) : IsWhole (.object fields)

/-! ### From the text to the tokens -/

/-- Whether a text has certain tokens, in front of any text that does not lengthen a number. -/
structure Spells (cs : List Char) (tokens : List Token) : Prop where
  /-- Every token takes a character. -/
  length_le : tokens.length ≤ cs.length
  /-- The tokens come first, and those of the text behind follow. -/
  read : ∀ fuel rest, EndsNumber rest →
    tokensWithin (tokens.length + fuel) (cs ++ rest) = (tokensWithin fuel rest).map (tokens ++ ·)

namespace Spells

variable {cs cs' rest : List Char} {ts ts' : List Token} {c : Char} {level : Nat}

/-- An empty text spells no tokens. -/
theorem nil : Spells [] [] where
  length_le := Nat.le_refl 0
  read fuel rest _ := by
    rw [List.length_nil, Nat.zero_add, List.nil_append]
    exact Option.map_id'.symm

/-- Blanks between tokens are skipped. -/
theorem tokensWithin_blank {fuel : Nat} (blank : isBlank c = true) :
    tokensWithin fuel (c :: cs) = tokensWithin fuel cs := by
  have skipped : (c :: cs).dropWhile isBlank = cs.dropWhile isBlank :=
    List.dropWhile_cons_of_pos blank
  rw [tokensWithin.eq_def, tokensWithin.eq_def fuel cs]
  simp only [skipped]

/-- A step of the reader at a token, which does not begin with a blank. -/
theorem tokensWithin_token {fuel : Nat} {t : Token} (visible : isBlank c = false)
    (read : token? (c :: cs) = some (t, rest)) :
    tokensWithin (fuel + 1) (c :: cs) = (tokensWithin fuel rest).map (t :: ·) := by
  have kept : (c :: cs).dropWhile isBlank = c :: cs :=
    List.dropWhile_cons_of_neg (by simp [visible])
  rw [tokensWithin.eq_def]
  simp only [kept, read, Option.bind_eq_bind, Option.bind_some, Option.pure_def]
  cases tokensWithin fuel rest <;> rfl

/-- A text that is a token, whatever follows, may stand in front of any text with tokens. -/
theorem cons_token {t : Token} (cs : List Char) (visible : isBlank c = false)
    (read : ∀ rest, token? (c :: (cs ++ rest)) = some (t, rest)) (behind : Spells cs' ts) :
    Spells (c :: (cs ++ cs')) (t :: ts) where
  length_le := by
    have shorter := behind.length_le
    simp only [List.length_cons, List.length_append]
    omega
  read fuel rest ends := by
    rw [List.length_cons, Nat.add_right_comm, List.cons_append, List.append_assoc,
      tokensWithin_token visible (read _), behind.read fuel rest ends, Option.map_map]
    rfl

/-- A mark may stand in front of any text with tokens. -/
theorem cons_mark {t : Token} (visible : isBlank c = false)
    (read : ∀ rest, token? (c :: rest) = some (t, rest)) (behind : Spells cs ts) :
    Spells (c :: cs) (t :: ts) :=
  cons_token [] visible read behind

/-- Blanks between tokens are skipped. -/
theorem cons_blank (blank : isBlank c = true) (behind : Spells cs ts) : Spells (c :: cs) ts where
  length_le := Nat.le_succ_of_le behind.length_le
  read fuel rest ends := by
    rw [List.cons_append, tokensWithin_blank blank, behind.read fuel rest ends]

/-- A new line in front adds no token. -/
theorem newLine_append (behind : Spells cs ts) : Spells (newLine level ++ cs) ts := by
  have spaces : ∀ n, Spells (List.replicate n ' ' ++ cs) ts := by
    intro n
    induction n with
    | zero => exact behind
    | succ n ih => exact ih.cons_blank (by decide)
  exact (spaces (2 * level)).cons_blank (by decide)

/-- Two texts with tokens may stand one behind the other, if the second one does not lengthen a
number. -/
theorem append (first : Spells cs ts) (second : Spells cs' ts') (apart : EndsNumber cs') :
    Spells (cs ++ cs') (ts ++ ts') where
  length_le := by
    rw [List.length_append, List.length_append]
    exact Nat.add_le_add first.length_le second.length_le
  read fuel rest ends := by
    rw [List.length_append, Nat.add_assoc, List.append_assoc,
      first.read _ _ (apart.append ends), second.read fuel rest ends, Option.map_map]
    simp only [Function.comp_def, List.append_assoc]

/-- A text with its tokens can be read as a whole. -/
theorem tokens? (spells : Spells cs ts) : Json.tokens? cs = some ts := by
  obtain ⟨fuel, enough⟩ := Nat.exists_eq_add_of_le spells.length_le
  have read := spells.read fuel [] (by rintro c ⟨⟩)
  have rest : tokensWithin fuel [] = some [] := by rw [tokensWithin.eq_def]; rfl
  rw [List.append_nil, rest, Option.map_some, List.append_nil] at read
  rw [Json.tokens?, enough, read]

end Spells

/-! ### Values -/

/-- A quoted text spells one token, whatever comes behind the closing quote. -/
theorem spells_quoted {cs : List Char} {ts : List Token} (s : String) (behind : Spells cs ts) :
    Spells (quoted s ++ cs) (.text (some s) :: ts) := by
  have read : ∀ rest, token? (quoted s ++ rest) = some (.text (some s), rest) :=
    fun _ => token?_quoted s
  rw [quoted, List.cons_append] at read ⊢
  exact .cons_token _ (by decide) read behind

/-- A written integer spells one token. -/
theorem spells_integer (n : Int) : Spells (toString n).toList [.number (some n)] := by
  obtain ⟨c, cs, chars, starts⟩ := toList_toString_eq_cons n
  refine ⟨by rw [chars]; exact Nat.le_add_left 1 cs.length, fun fuel rest ends => ?_⟩
  have read := token?_toString n ends
  rw [chars, List.cons_append] at read ⊢
  rw [List.length_singleton, Nat.add_comm,
    Spells.tokensWithin_token (isBlank_eq_false starts) read]
  rfl

/-- A number ends before a new line. -/
theorem endsNumber_newLine {level : Nat} {cs : List Char} : EndsNumber (newLine level ++ cs) :=
  endsNumber_cons (by decide)

section Lists

variable {level : Nat} {cs : List Char} {ts : List Token}

/-- A number ends before the rest of an array. -/
theorem endsNumber_writtenItems {items : List Value} (ends : EndsNumber cs) :
    EndsNumber (writtenItems level items ++ cs) := by
  cases items with
  | nil => exact ends
  | cons item items => exact endsNumber_cons (by decide)

/-- The items after the first one, if the text of each has its tokens. -/
theorem spells_writtenItems {items : List Value}
    (each : ∀ item ∈ items, ∀ level, Spells (item.writtenAt level) item.tokens)
    (behind : Spells cs ts) (ends : EndsNumber cs) :
    Spells (writtenItems level items ++ cs) (itemTokens items ++ ts) := by
  induction items with
  | nil => exact behind
  | cons item items ih =>
    have others := ih fun v mem => each v (List.mem_cons_of_mem item mem)
    have first := each item List.mem_cons_self level
    simp only [writtenItems, itemTokens, List.cons_append, List.append_assoc]
    exact .cons_mark (by decide) (fun _ => rfl)
      (.newLine_append (first.append others (endsNumber_writtenItems ends)))

/-- A number ends before the rest of an object. -/
theorem endsNumber_writtenFields {fields : List (Option String × Value)} (ends : EndsNumber cs) :
    EndsNumber (writtenFields level fields ++ cs) := by
  cases fields with
  | nil => exact ends
  | cons field fields => exact endsNumber_cons (by decide)

/-- A field whose key is known, if the text of its value has its tokens. -/
theorem spells_writtenField {field : Option String × Value} (known : field.1.isSome)
    (value : Spells (field.2.writtenAt level) field.2.tokens) (behind : Spells cs ts)
    (ends : EndsNumber cs) :
    Spells (writtenField level field ++ cs) (fieldTokens field ++ ts) := by
  obtain ⟨key, _⟩ := field
  obtain ⟨key, rfl⟩ := Option.isSome_iff_exists.mp known
  simp only [writtenField, fieldTokens, Option.getD_some, List.cons_append, List.append_assoc]
  exact spells_quoted key (.cons_mark (by decide) (fun _ => rfl)
    (.cons_blank (by decide) (value.append behind ends)))

/-- The fields after the first one. -/
theorem spells_writtenFields {fields : List (Option String × Value)}
    (keys : ∀ field ∈ fields, field.1.isSome)
    (each : ∀ field ∈ fields, ∀ level, Spells (field.2.writtenAt level) field.2.tokens)
    (behind : Spells cs ts) (ends : EndsNumber cs) :
    Spells (writtenFields level fields ++ cs) (fieldsTokens fields ++ ts) := by
  induction fields with
  | nil => exact behind
  | cons field fields ih =>
    have others := ih (fun f mem => keys f (List.mem_cons_of_mem field mem))
      fun f mem => each f (List.mem_cons_of_mem field mem)
    have first := spells_writtenField (keys field List.mem_cons_self)
      (each field List.mem_cons_self level) others (endsNumber_writtenFields ends)
    simp only [writtenFields, fieldsTokens, List.cons_append, List.append_assoc]
    exact .cons_mark (by decide) (fun _ => rfl) (.newLine_append first)

/-- An array, if the text of each item has its tokens. -/
theorem spells_array {items : List Value}
    (each : ∀ item ∈ items, ∀ level, Spells (item.writtenAt level) item.tokens) :
    Spells ((Value.array items).writtenAt level) (Value.array items).tokens := by
  cases items with
  | nil =>
    exact .cons_mark (by decide) (fun _ => rfl) (.cons_mark (by decide) (fun _ => rfl) .nil)
  | cons item items =>
    have close : Spells (newLine level ++ [']']) [.closeArray] :=
      .newLine_append (.cons_mark (by decide) (fun _ => rfl) .nil)
    have others : Spells (writtenItems (level + 1) items ++ _) (itemTokens items ++ _) :=
      spells_writtenItems (fun v mem => each v (List.mem_cons_of_mem item mem)) close
        endsNumber_newLine
    have first := each item List.mem_cons_self (level + 1)
    simp only [Value.writtenAt, Value.tokens, List.cons_append, List.append_assoc]
    exact .cons_mark (by decide) (fun _ => rfl)
      (.newLine_append (first.append others (endsNumber_writtenItems endsNumber_newLine)))

/-- An object whose keys are known, if the text of each value has its tokens. -/
theorem spells_object {fields : List (Option String × Value)}
    (keys : ∀ field ∈ fields, field.1.isSome)
    (each : ∀ field ∈ fields, ∀ level, Spells (field.2.writtenAt level) field.2.tokens) :
    Spells ((Value.object fields).writtenAt level) (Value.object fields).tokens := by
  cases fields with
  | nil =>
    exact .cons_mark (by decide) (fun _ => rfl) (.cons_mark (by decide) (fun _ => rfl) .nil)
  | cons field fields =>
    have close : Spells (newLine level ++ ['\x7d']) [.closeObject] :=
      .newLine_append (.cons_mark (by decide) (fun _ => rfl) .nil)
    have others : Spells (writtenFields (level + 1) fields ++ _) (fieldsTokens fields ++ _) :=
      spells_writtenFields (fun f mem => keys f (List.mem_cons_of_mem field mem))
        (fun f mem => each f (List.mem_cons_of_mem field mem)) close endsNumber_newLine
    have first := spells_writtenField (keys field List.mem_cons_self)
      (each field List.mem_cons_self (level + 1)) others
      (endsNumber_writtenFields endsNumber_newLine)
    simp only [Value.writtenAt, Value.tokens, List.cons_append, List.append_assoc]
    exact .cons_mark (by decide) (fun _ => rfl) (.newLine_append first)

end Lists

/-- The text of a value has the tokens of the value. -/
theorem Value.spells_writtenAt {value : Value} (whole : value.IsWhole) :
    ∀ level, Spells (value.writtenAt level) value.tokens := by
  induction whole with
  | null => exact fun _ => .cons_token "ull".toList (by decide) (fun _ => rfl) .nil
  | bool b =>
    cases b with
    | false => exact fun _ => .cons_token "alse".toList (by decide) (fun _ => rfl) .nil
    | true => exact fun _ => .cons_token "rue".toList (by decide) (fun _ => rfl) .nil
  | number n => exact fun _ => spells_integer n
  | text s => exact fun _ => by simpa [writtenAt, tokens] using spells_quoted s .nil
  | array _ each => exact fun _ => spells_array each
  | object keys _ each => exact fun _ => spells_object keys each

/-! ### From the tokens to the value -/

/-- Whether the tokens of a value make the value, whatever follows. Two steps for every token
suffice. -/
def Reads (value : Value) : Prop :=
  ∀ fuel rest, 2 * value.tokens.length ≤ fuel →
    value? fuel (value.tokens ++ rest) = some (value, rest)

/-- A value does not begin with the bracket after an array. -/
theorem Value.tokens_eq_cons (value : Value) :
    ∃ t ts, value.tokens = t :: ts ∧ t ≠ .closeArray := by
  fun_cases Value.tokens value <;> exact ⟨_, _, rfl, nofun⟩

/-- The items of an array, up to its closing bracket. -/
theorem items?_tokens {item : Value} {items : List Value} (first : Reads item)
    (each : ∀ v ∈ items, Reads v) (fuel : Nat) (rest : List Token)
    (enough : 2 * (item.tokens ++ itemTokens items).length < fuel) :
    items? fuel (item.tokens ++ (itemTokens items ++ .closeArray :: rest)) =
      some (item :: items, rest) := by
  induction items generalizing item fuel with
  | nil =>
    obtain ⟨fuel, rfl⟩ := Nat.exists_eq_add_one_of_ne_zero (Nat.ne_zero_of_lt enough)
    simp only [itemTokens, List.append_nil, List.nil_append] at enough ⊢
    rw [items?, first fuel _ (by omega)]
    rfl
  | cons next items ih =>
    obtain ⟨fuel, rfl⟩ := Nat.exists_eq_add_one_of_ne_zero (Nat.ne_zero_of_lt enough)
    simp only [itemTokens, List.length_append, List.length_cons] at enough
    have others := ih (each next List.mem_cons_self)
      (fun v mem => each v (List.mem_cons_of_mem next mem)) fuel
      (by rw [List.length_append]; omega)
    simp only [itemTokens, List.cons_append, List.append_assoc]
    rw [items?, first fuel _ (by omega)]
    simp only [Option.bind_eq_bind, Option.bind_some, others, Option.pure_def]

/-- The tokens of a field are its name, a colon, and those of its value. -/
theorem fieldTokens_eq (field : Option String × Value) :
    fieldTokens field = .text field.1 :: .colon :: field.2.tokens := by
  cases field
  rfl

/-- The fields of an object, up to its closing brace. -/
theorem fields?_tokens {field : Option String × Value} {fields : List (Option String × Value)}
    (first : Reads field.2) (each : ∀ f ∈ fields, Reads f.2) (fuel : Nat) (rest : List Token)
    (enough : 2 * (fieldTokens field ++ fieldsTokens fields).length < fuel) :
    fields? fuel (fieldTokens field ++ (fieldsTokens fields ++ .closeObject :: rest)) =
      some (field :: fields, rest) := by
  induction fields generalizing field fuel with
  | nil =>
    obtain ⟨fuel, rfl⟩ := Nat.exists_eq_add_one_of_ne_zero (Nat.ne_zero_of_lt enough)
    simp only [fieldTokens_eq, fieldsTokens, List.append_nil, List.nil_append, List.length_cons,
      List.cons_append] at enough ⊢
    rw [fields?, first fuel _ (by omega)]
    rfl
  | cons next fields ih =>
    obtain ⟨fuel, rfl⟩ := Nat.exists_eq_add_one_of_ne_zero (Nat.ne_zero_of_lt enough)
    have others := ih (each next List.mem_cons_self)
      (fun f mem => each f (List.mem_cons_of_mem next mem)) fuel
    simp only [fieldTokens_eq, fieldsTokens, List.length_append, List.length_cons] at enough others
    simp only [fieldTokens_eq, fieldsTokens, List.cons_append, List.append_assoc] at others ⊢
    rw [fields?, first fuel _ (by omega)]
    simp only [Option.bind_eq_bind, Option.bind_some, others (by omega), Option.pure_def]

/-- An array, if the tokens of each item make the item. -/
theorem reads_array {items : List Value} (each : ∀ item ∈ items, Reads item) :
    Reads (.array items) := by
  intro fuel rest enough
  cases items with
  | nil =>
    obtain ⟨fuel, rfl⟩ := Nat.exists_eq_add_one_of_ne_zero (Nat.ne_zero_of_lt enough)
    rfl
  | cons item items =>
    simp only [Value.tokens, List.length_cons, List.length_append, List.length_nil] at enough
    obtain ⟨fuel, rfl⟩ := Nat.exists_eq_add_one_of_ne_zero (n := fuel) (by omega)
    have read := items?_tokens (each item List.mem_cons_self)
      (fun v mem => each v (List.mem_cons_of_mem item mem)) fuel rest
      (by rw [List.length_append]; omega)
    obtain ⟨t, ts, first, filled⟩ := item.tokens_eq_cons
    simp only [Value.tokens, List.cons_append, List.append_assoc, List.nil_append]
    rw [first, List.cons_append] at read ⊢
    rw [value?, read]
    · rfl
    · exact fun _ same => filled (List.cons.inj same).1

/-- An object, if the tokens of each value make the value. -/
theorem reads_object {fields : List (Option String × Value)}
    (each : ∀ field ∈ fields, Reads field.2) : Reads (.object fields) := by
  intro fuel rest enough
  cases fields with
  | nil =>
    obtain ⟨fuel, rfl⟩ := Nat.exists_eq_add_one_of_ne_zero (Nat.ne_zero_of_lt enough)
    rfl
  | cons field fields =>
    simp only [Value.tokens, List.length_cons, List.length_append, List.length_nil] at enough
    obtain ⟨fuel, rfl⟩ := Nat.exists_eq_add_one_of_ne_zero (n := fuel) (by omega)
    have read := fields?_tokens (each field List.mem_cons_self)
      (fun f mem => each f (List.mem_cons_of_mem field mem)) fuel rest
      (by rw [List.length_append]; omega)
    simp only [Value.tokens, List.cons_append, List.append_assoc, List.nil_append]
    rw [fieldTokens_eq, List.cons_append, List.cons_append] at read ⊢
    rw [value?, read]
    · rfl
    · rintro _ ⟨⟩

/-- The tokens of a value make the value. -/
theorem Value.reads {value : Value} (whole : value.IsWhole) : Reads value := by
  induction whole with
  | null | bool | number | text =>
    intro fuel rest enough
    obtain ⟨fuel, rfl⟩ := Nat.exists_eq_add_one_of_ne_zero (Nat.ne_zero_of_lt enough)
    rfl
  | array _ each => exact reads_array each
  | object _ _ each => exact reads_object each

/-- **A written value is read back.** -/
theorem Value.ofChars?_writtenAt {value : Value} (whole : value.IsWhole) (level : Nat) :
    ofChars? (value.writtenAt level) = some value := by
  have read := Value.reads whole (2 * value.tokens.length + 1) [] (Nat.le_succ _)
  rw [List.append_nil] at read
  rw [ofChars?, (spells_writtenAt whole level).tokens?, Option.bind_eq_bind, Option.bind_some,
    read]

end TaggedMemos.Json
