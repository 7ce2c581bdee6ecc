import TaggedMemos.Text.Numeral
import TaggedMemos.Text.Substring

/-!
# Memo Identifiers

A memo is identified by 128 bits, written as 32 lower-case hexadecimal digits in groups of 8,
4, 4, 4 and 12 with hyphens between. Four spellings are read: the grouped one, the 32 digits
alone, the grouped one in braces, and the grouped one after `urn:uuid:`. Letters count alike
in either case, those of the URN prefix included.
-/

namespace TaggedMemos

open Text

/-- The identifier of a memo. -/
structure MemoId where
  /-- The identifier as a number. -/
  bits : BitVec 128
  deriving DecidableEq, Repr

namespace MemoId

instance : Inhabited MemoId := ⟨⟨0⟩⟩

/-- The identifier with a given numeric value, modulo 2 to the 128. -/
def ofNat (n : Nat) : MemoId :=
  ⟨BitVec.ofNat 128 n⟩

/-- The identifier made of random bits. Four of them are fixed to say that the others are random,
and two more by the common layout of identifiers. -/
def ofRandom (bits : BitVec 128) : MemoId :=
  let fixed : BitVec 128 := 0xf <<< 76 ||| 0x3 <<< 62
  ⟨bits &&& ~~~fixed ||| 0x4 <<< 76 ||| 0x2 <<< 62⟩

/-- The lengths of the groups of digits. -/
def groups : List Nat := [8, 4, 4, 4, 12]

/-- Digits in groups of the given lengths, with hyphens between them. -/
def grouped : List Nat → List Char → List Char
  | [], digits => digits
  | [_], digits => digits
  | n :: lengths, digits => digits.take n ++ '-' :: grouped lengths (digits.drop n)

/-- The digits of a grouped text, when its groups have the given lengths. -/
def ungrouped? : List Nat → List Char → Option (List Char)
  | [], cs => if cs.isEmpty then some [] else none
  | [n], cs => if cs.length = n then some cs else none
  | n :: lengths, cs =>
    match cs.drop n with
    | '-' :: rest => (ungrouped? lengths rest).map (cs.take n ++ ·)
    | _ => none

/-- The grouped spelling in lower case. -/
def toChars (id : MemoId) : List Char :=
  grouped groups (hexDigits 32 id.bits.toNat)

/-- The grouped spelling in lower case. -/
def toText (id : MemoId) : String :=
  String.ofList id.toChars

/-- The identifier written by 32 hexadecimal digits. -/
def ofDigits? (digits : List Char) : Option MemoId :=
  if digits.length = 32 then (hexadecimal? digits).map ofNat else none

/-- What a text holds inside braces. -/
def braced? (cs : List Char) : Option (List Char) :=
  match cs, cs.reverse with
  | '{' :: rest, '}' :: _ => some rest.dropLast
  | _, _ => none

/-- What a text holds after the prefix `urn:uuid:`, in any case of letters. -/
def afterUrn? (cs : List Char) : Option (List Char) :=
  if (cs.take 9).map Char.toLower = "urn:uuid:".toList then some (cs.drop 9) else none

/-- Reads an identifier in any of its spellings. -/
def ofText? (text : String) : Option MemoId :=
  let cs := text.toList
  if cs.length = 32 then ofDigits? cs
  else
    let inner := ((braced? cs).orElse fun _ => afterUrn? cs).getD cs
    (ungrouped? groups inner).bind ofDigits?

/-- The first eight digits, which stand for a memo in listings. -/
def short (id : MemoId) : String :=
  String.ofList (id.toChars.take 8)

end MemoId

end TaggedMemos
