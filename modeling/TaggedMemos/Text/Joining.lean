import TaggedMemos.Text.Width

/-!
# Joining Characters

The columns of a text are not always the sum of the columns of its characters. Pictures with a
joiner between them are shown as one picture, a tone disappears in the picture it colors, a
selector makes a sign a picture or a picture a sign, and some scripts write certain letters as
one. All of it is decided from the end of a text to its beginning: what a character adds depends
on what follows it alone, and `Context` holds as much of that as matters.
-/

namespace TaggedMemos.Text

/-! ### Kinds of characters -/

/-- The characters that take up no column and that Arabic letters do not join across. -/
def unjoined : CharRanges := [
  (1541, 1541), (2192, 2193), (2274, 2274), (2494, 2494), (2519, 2519), (2878, 2878),
  (2903, 2903), (3006, 3006), (3031, 3031), (3264, 3264), (3266, 3266), (3271, 3272),
  (3274, 3275), (3285, 3286), (3390, 3390), (3406, 3406), (3415, 3415), (3535, 3535),
  (3551, 3551), (4448, 4607), (5909, 5909), (5940, 5940), (6158, 6158), (6965, 6965),
  (6971, 6971), (6973, 6973), (6979, 6980), (7082, 7082), (7154, 7155), (8204, 8205),
  (8293, 8297), (12334, 12335), (12644, 12644), (43258, 43258), (43347, 43347), (43456, 43456),
  (55216, 55238), (55243, 55291), (65440, 65440), (65520, 65528), (70080, 70080), (70082, 70083),
  (70197, 70197), (70462, 70462), (70477, 70477), (70487, 70487), (70584, 70584), (70594, 70594),
  (70597, 70597), (70599, 70601), (70607, 70607), (70609, 70609), (70832, 70832), (70845, 70845),
  (71087, 71087), (71350, 71350), (71984, 71984), (71997, 71997), (71999, 71999), (72001, 72001),
  (72324, 72329), (73030, 73030), (73474, 73474), (73537, 73537), (94192, 94193),
  (119141, 119142), (119149, 119154), (917504, 917504), (917506, 917535), (917632, 917759),
  (918000, 921599)]

/-- Whether letters join as if the character were not there. -/
def isUnseen (c : Char) : Bool :=
  CharRanges.contains [(847, 847), (6068, 6069), (6155, 6157), (6159, 6159), (65024, 65039),
    (917760, 917999)] c

/-- The joiner. -/
def joiner : Char := '\u200d'

/-- Whether a character is an Arabic letter that joins with the alef behind it. -/
def isLam (c : Char) : Bool :=
  CharRanges.contains [(1604, 1604), (1717, 1720), (1898, 1898), (2214, 2214), (2247, 2247)] c

/-- Whether a character is an Arabic letter that joins with the lam before it. -/
def isAlef (c : Char) : Bool :=
  CharRanges.contains [(1570, 1571), (1573, 1573), (1575, 1575), (1649, 1651), (1653, 1653),
    (1907, 1908), (2160, 2178)] c

/-- Whether a character is a Khmer letter that can stand below another. -/
def isKhmerLetter (c : Char) : Bool :=
  CharRanges.contains [(6016, 6018), (6020, 6023), (6025, 6028), (6030, 6035), (6037, 6040),
    (6043, 6045), (6048, 6048), (6050, 6050), (6055, 6055), (6059, 6060), (6063, 6063)] c

/-- Whether a character is a Tifinagh consonant. -/
def isTifinaghConsonant (c : Char) : Bool :=
  CharRanges.contains [(11569, 11621), (11631, 11631)] c

/-- Whether a character is one of the quotation marks that East Asian typography can set wide. -/
def isQuote (c : Char) : Bool :=
  c == '\u2018' || c == '\u2019' || c == '\u201c' || c == '\u201d'

/-! ### What follows a character -/

/-- A letter that is written as one with certain characters before it. -/
inductive JoiningLetter where
  /-- The Hebrew letter lamed. -/
  | lamed
  /-- The Buginese letter ya. -/
  | ya
  /-- The same with a vowel and a joiner before it. -/
  | yaWithVowel
  /-- A Tifinagh consonant. -/
  | consonant
  /-- The same with the joiner of its script before it. -/
  | joinedConsonant
  /-- A Lisu tone that can be the second one. -/
  | lisuTone
  /-- The Old Turkic letter i. -/
  | orkhonI
  /-- A Khmer letter that can stand below another. -/
  | khmer
  deriving DecidableEq, Repr

/-- How the text behind a character begins. -/
inductive Neighbor where
  /-- With nothing that joins. -/
  | plain
  /-- With a line feed. -/
  | lineFeed
  /-- With a picture. -/
  | picture
  /-- With a tone. -/
  | tone
  /-- With the second letter of a flag. -/
  | flagLetter
  /-- With two letters of flags or more. -/
  | flag
  /-- With a joiner before a picture. -/
  | joined
  /-- With the frame of a key, and so on as `joined`. -/
  | joinedKey
  /-- With the second letter of a flag, and so on as `joined`. -/
  | joinedFlagLetter
  /-- With a number of whole flags, and so on as `joined`. -/
  | joinedFlags
  /-- With the second letter of a flag and whole flags, and so on as `joined`. -/
  | joinedOddFlags
  /-- With invisible letters, after them digits, and so on as `joined`. -/
  | joinedTags (letters digits : Nat)
  /-- With a letter, perhaps after a joiner. -/
  | letter (letter : JoiningLetter) (joined : Bool)
  /-- With an Arabic letter that joins with the lam before it. -/
  | alef
  /-- With the Kirat Rai vowel sign e. -/
  | vowelE
  /-- With the Kirat Rai vowel sign ai. -/
  | vowelAi
  deriving DecidableEq, Repr

/-- How a selector asks the character before it to be shown. -/
inductive Selector where
  /-- As a picture. -/
  | picture
  /-- As a plain sign. -/
  | sign
  /-- In two columns. -/
  | wide
  deriving DecidableEq, Repr

/-- What matters of the text behind a character. -/
structure Context where
  /-- How the text begins, selectors apart. -/
  neighbor : Neighbor := .plain
  /-- The selector that it begins with. -/
  selector : Option Selector := none
  deriving DecidableEq, Repr

namespace Neighbor

/-- How a text begins whose first character joins with nothing behind it. -/
def ofChar (c : Char) : Neighbor :=
  if isTone c then tone
  else if isFlagLetter c then flagLetter
  else if isPicture c then picture
  else if isAlef c then alef
  else if isKhmerLetter c then letter .khmer true
  else if isTifinaghConsonant c then letter .consonant false
  else if c == '\u05dc' then letter .lamed false
  else if c == '\u1a10' then letter .ya false
  else if c == '\ua4fc' || c == '\ua4fd' then letter .lisuTone true
  else if c == Char.ofNat 0x10c03 then letter .orkhonI false
  else if c == Char.ofNat 0x16d67 then vowelE
  else if c == Char.ofNat 0x16d68 then vowelAi
  else plain

/-- What a selector leaves of what is behind it: letters join across selectors. -/
def acrossSelector : Neighbor → Neighbor
  | alef => alef
  | letter l isJoined => letter l isJoined
  | _ => plain

/-- What a selector of pictures leaves of what is behind it: pictures are joined across it. -/
def acrossPictureSelector : Neighbor → Neighbor
  | joined => joined
  | joinedKey => joinedKey
  | n => n.acrossSelector

/-- Whether a picture before it is shown as one with it. -/
def joinsPicture : Neighbor → Bool
  | joined | joinedKey => true
  | _ => false

/-- Whether invisible letters and digits can be those of a flag: there are three digits, or at
least three letters and no digit. -/
def isTaggedFlag : Neighbor → Bool
  | joinedTags letters digits => if digits = 0 then 3 ≤ letters else digits == 3
  | _ => false

/-- The columns that a character adds to what is behind it, and how the text begins with it, if
it joins with that. -/
def join? (n : Neighbor) (c : Char) : Option (Int × Neighbor) :=
  match n with
  | plain | lineFeed => none
  | alef =>
    if isLam c then some (0, plain)
    else if widthInText c = 0 && !unjoined.contains c then some (0, alef)
    else none
  | letter .lamed true => if c == '\u05d0' then some (0, plain) else none
  | letter .khmer _ => if c == '\u17d2' then some (-1, plain) else none
  | letter .ya true => if c == '\u1a17' then some (0, letter .yaWithVowel true) else none
  | letter .yaWithVowel _ => if c == '\u1a15' then some (0, plain) else none
  | letter .consonant isJoined =>
    if c == '\u2d7f' then some (1, letter .joinedConsonant true)
    else if isJoined && isTifinaghConsonant c then some (0, plain)
    else none
  | letter .joinedConsonant _ => if isTifinaghConsonant c then some (-1, plain) else none
  | letter .lisuTone _ => if '\ua4f8' ≤ c && c ≤ '\ua4fb' then some (0, plain) else none
  | letter .orkhonI true => if c == Char.ofNat 0x10c32 then some (0, plain) else none
  | letter _ false => none
  | vowelE =>
    if c == Char.ofNat 0x16d63 || c == Char.ofNat 0x16d69 then some (0, plain)
    else if c == Char.ofNat 0x16d67 then some (0, vowelAi)
    else if c == Char.ofNat 0x16d68 then some (1, vowelE)
    else none
  | vowelAi => if c == Char.ofNat 0x16d63 then some (0, plain) else none
  | picture => if c == joiner then some (0, joined) else none
  | tone =>
    if takesTone c then some (0, picture) else if c == joiner then some (0, joined) else none
  | flagLetter => if isFlagLetter c then some (1, flag) else none
  | flag =>
    if isFlagLetter c then some (1, flag) else if c == joiner then some (0, joined) else none
  | joined =>
    if c == '\u20e3' then some (0, joinedKey)
    else if isFlagLetter c then some (1, joinedFlagLetter)
    else if isTone c then some (0, tone)
    else if c == Char.ofNat 0xe007f then some (0, joinedTags 0 0)
    else if isPicture c then some (0, picture)
    else none
  | joinedKey => none
  | joinedFlagLetter => if isFlagLetter c then some (-1, joinedFlags) else none
  | joinedFlags =>
    if isFlagLetter c then some (3, joinedOddFlags)
    else if c == joiner then some (0, joined) else none
  | joinedOddFlags =>
    if isFlagLetter c then some (-1, joinedFlags)
    else if c == joiner then some (0, joined) else none
  | joinedTags letters digits =>
    if isTagLetter c && digits = 0 && letters < 6 then some (0, joinedTags (letters + 1) 0)
    else if isTagDigit c && (if digits = 0 then letters < 5 else digits < 3) then
      some (0, joinedTags letters (digits + 1))
    else if c == Char.ofNat 0x1f3f4 && n.isTaggedFlag then some (0, picture)
    else none

end Neighbor

namespace Context

/-- The same as `before`, where no selector has a say. -/
def beforeUnselected (n : Neighbor) (c : Char) : Int × Context :=
  match n, c == joiner, isUnseen c with
  | .letter l _, true, _ => (0, ⟨.letter l true, none⟩)
  | .letter l isJoined, false, true => (0, ⟨.letter l isJoined, none⟩)
  | _, _, _ =>
    match n.join? c with
    | some (columns, neighbor) => (columns, ⟨neighbor, none⟩)
    | none => (widthInText c, ⟨.ofChar c, none⟩)

/-- The columns that a character adds to the text behind it, and what matters of the text that
begins with the character. -/
def before (next : Context) (c : Char) : Int × Context :=
  if next.selector = some .picture && canBePicture c then
    (if next.neighbor.joinsPicture then 0 else 2, ⟨.picture, none⟩)
  else
    let neighbor :=
      if next.selector = some .picture then next.neighbor.acrossSelector else next.neighbor
    if c ≤ '\u00a0' then
      if c == '\n' then (1, ⟨.lineFeed, none⟩)
      else if c == '\x0d' && neighbor = .lineFeed then (0, {})
      else (1, {})
    else if c == '\ufe0f' then (0, ⟨neighbor.acrossPictureSelector, some .picture⟩)
    else if c == '\ufe0e' then (0, ⟨neighbor.acrossSelector, some .sign⟩)
    else if c == '\ufe01' then (0, ⟨neighbor.acrossSelector, some .wide⟩)
    else if next.selector = some .sign && canBePlain c then (1, {})
    else if next.selector = some .wide && isQuote c then (2, {})
    else beforeUnselected neighbor c

end Context

/-- The columns that a text takes up, and what matters of it for a character before it. -/
def widthAndContext : List Char → Int × Context
  | [] => (0, {})
  | c :: cs =>
    let (width, next) := widthAndContext cs
    let (columns, context) := next.before c
    (columns + width, context)

/-- The columns that a text takes up. -/
def textWidth (cs : List Char) : Nat :=
  (widthAndContext cs).1.toNat

end TaggedMemos.Text
