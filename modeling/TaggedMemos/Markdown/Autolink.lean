import TaggedMemos.Markdown.Cursor

/-!
# Addresses in Angle Brackets

`<address>` is a link to the address, if it has a scheme or is an email address. The recognisers
look at the text after the `<` and answer with the number of characters of the address; a `>`
follows it. An address with a scheme may have characters of several bytes.
-/

namespace TaggedMemos.Markdown

/-- The length of an address with a scheme: a scheme of two to thirty-two characters, a colon,
and anything but spaces, control characters and `<`. -/
def schemeAddressLength? (cs : List Char) : Option Nat :=
  match cs with
  | c :: rest =>
    let scheme :=
      1 + countWhile (fun c => isAsciiAlphanumeric c || c == '.' || c == '-' || c == '+') rest
    let path := cs.drop (scheme + 1)
    let n := countWhile (fun c => 0x20 < c.toNat && c != '<' && c != '>') path
    if isAsciiLetter c && (cs.drop scheme).head? == some ':' && 2 ≤ scheme && scheme ≤ 32 &&
        (path.drop n).head? == some '>' then some (scheme + 1 + n)
    else none
  | [] => none

/-- The characters of an email address before the `@`. -/
def isMailboxChar (c : Char) : Bool :=
  isAsciiAlphanumeric c || ".!#$%&'*+/=?^_`\x7b|\x7d~-".toList.contains c

/-- The length of a host name: labels of letters, digits and inner hyphens with dots between,
each at most sixty-three characters long. -/
def hostLength? : Nat → List Char → Option Nat
  | 0, _ => none
  | fuel + 1, cs =>
    let label := cs.takeWhile fun c => isAsciiAlphanumeric c || c == '-'
    let n := label.length
    if n = 0 || 63 < n || label.head? == some '-' || label.getLast? == some '-' then none
    else match cs.drop n with
      | '.' :: rest => (hostLength? fuel rest).map (n + 1 + ·)
      | _ => some n

/-- The length of an email address. -/
def emailLength? (cs : List Char) : Option Nat := do
  let n := countWhile isMailboxChar cs
  match cs.drop n with
  | '@' :: host =>
    let m ← hostLength? (host.length + 1) host
    if n = 0 || (host.drop m).head? != some '>' then none else some (n + 1 + m)
  | _ => none

/-- The length of the address a text begins with. -/
def addressLength? (cs : List Char) : Option Nat :=
  (schemeAddressLength? cs).or (emailLength? cs)

end TaggedMemos.Markdown
