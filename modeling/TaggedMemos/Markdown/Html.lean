import TaggedMemos.Markdown.Margin
import TaggedMemos.Text.Offset
import TaggedMemos.Text.Substring

/-!
# HTML

Two uses of HTML are recognised: a line that begins an HTML block, and a tag, comment,
processing instruction, declaration or character data section within a paragraph.

A tag within a paragraph may go over several lines; each new line then begins after the margin
of the containers around it. The other constructs within a paragraph run up to their closing
characters wherever these stand.
-/

namespace TaggedMemos.Markdown

open Text

/-! ### Tags -/

/-- How a tag goes on after a line ending: not at all in a block, and after the margin of the
containers in a paragraph. -/
abbrev NewLine := Option (Cursor → Cursor)

/-- Passes gaps and line endings; nothing comes back when a line ending is not allowed or the
text is over. -/
def passSpacing (newLine : NewLine) : Nat → Cursor → Option Cursor
  | 0, _ => none
  | fuel + 1, cursor =>
    match cursor.rest with
    | [] => none
    | c :: _ =>
      if isGap c then passSpacing newLine fuel (cursor.skip 1)
      else if isEol c then do
        let next ← newLine
        passSpacing newLine fuel (next (cursor.skip ((eol? cursor.rest).getD 1)))
      else some cursor

/-- The length of the attribute name a text begins with. -/
def attributeName? (cs : List Char) : Option Nat :=
  match cs with
  | c :: rest =>
    if isAsciiLetter c || c == '_' || c == ':' then
      some (1 + countWhile
        (fun c => isAsciiAlphanumeric c || c == '_' || c == '.' || c == ':' || c == '-') rest)
    else none
  | [] => none

/-- Passes a quoted attribute value up to and including its closing quote. -/
def passQuoted (newLine : NewLine) (quote : Char) : Nat → Cursor → Option Cursor
  | 0, _ => none
  | fuel + 1, cursor =>
    match cursor.rest with
    | [] => none
    | c :: _ =>
      if c = quote then some (cursor.skip 1)
      else if isEol c then do
        let next ← newLine
        passQuoted newLine quote fuel (next (cursor.skip ((eol? cursor.rest).getD 1)))
      else passQuoted newLine quote fuel (cursor.skip 1)

/-- The characters that cannot stand in an attribute value without quotes. -/
def endsBareValue (c : Char) : Bool :=
  c == '\'' || c == '"' || c == ' ' || c == '=' || c == '>' || c == '<' || c == '`' || isEol c

/-- Passes an attribute value. -/
def passValue (newLine : NewLine) (fuel : Nat) (cursor : Cursor) : Option Cursor :=
  match cursor.rest with
  | [] => none
  | c :: _ =>
    if c == '"' || c == '\'' then passQuoted newLine c fuel (cursor.skip 1)
    else if endsBareValue c then none
    else some (cursor.skip (countWhile (fun c => !endsBareValue c) cursor.rest))

/-- Passes an attribute: a name, and perhaps an equals sign and a value with spacing around. -/
def passAttribute (newLine : NewLine) (fuel : Nat) (cursor : Cursor) : Option Cursor := do
  let n ← attributeName? cursor.rest
  let afterName := cursor.skip n
  let sign ← passSpacing newLine fuel afterName
  if sign.rest.head? == some '=' then
    let value ← passSpacing newLine fuel (sign.skip 1)
    passValue newLine fuel value
  else some afterName

/-- Passes the attributes of an opening tag, each with spacing before it, up to the `/` or `>`
that follows them. -/
def passAttributes (newLine : NewLine) : Nat → Cursor → Option Cursor
  | 0, _ => none
  | fuel + 1, cursor => do
    let next ← passSpacing newLine (fuel + 1) cursor
    if next.rest.head? == some '/' || next.rest.head? == some '>' then some next
    else if next.pos = cursor.pos then none
    else passAttributes newLine fuel (← passAttribute newLine (fuel + 1) next)

/-- Passes a tag, from the `<` to the `>`. -/
def passTag (newLine : NewLine) (cursor : Cursor) : Option Cursor := do
  let fuel := cursor.rest.length + 1
  let closing := (cursor.rest.drop 1).head? == some '/'
  let name := cursor.skip (if closing then 2 else 1)
  let letters := countWhile isAsciiLetter name.rest
  if letters = 0 then none
  else
    let afterName :=
      name.skip (countWhile (fun c => isAsciiAlphanumeric c || c == '-') name.rest)
    let beforeEnd ←
      if closing then some (afterName.skip (countWhile isGap afterName.rest))
      else do
        let afterAttributes ← passAttributes newLine fuel afterName
        some (afterAttributes.skip (if afterAttributes.rest.head? == some '/' then 1 else 0))
    if beforeEnd.rest.head? == some '>' then some (beforeEnd.skip 1) else none

/-! ### HTML within a paragraph -/

/-- How far a text was searched for the ends of HTML constructs. None begins before that any more,
even where the parts of a text are not read in their order. -/
structure HtmlTried where
  /-- For comments: through the last hyphen that did not end one. -/
  comment : Nat := 0
  /-- For character data sections that were not ended properly. -/
  characterData : Nat := 0
  /-- For declarations without an end. -/
  declaration : Nat := 0
  /-- For processing instructions without an end. -/
  instruction : Nat := 0

/-- The offset after the last occurrence of a character before a position that is `before` away
from a cursor, if there is one. -/
def Cursor.lastAfter? (mark : Char) (before : List Char) (cursor : Cursor) : Option Nat :=
  match before.reverse.dropWhile (· != mark) with
  | [] => none
  | through => some (cursor.pos + byteLength through)

/-- Passes a comment, given its opening hyphens. The closing characters may share hyphens with
the opening ones. -/
def passComment (tried : HtmlTried) (cursor : Cursor) : Option Cursor × HtmlTried :=
  if cursor.pos < tried.comment then (none, tried)
  else
    let before? := before? "-->".toList cursor.rest
    let comment := (cursor.lastAfter? '-' (before?.getD cursor.rest)).getD tried.comment
    (before?.map fun before => cursor.skip (before.length + 3), { tried with comment })

/-- Passes a character data section, given its opening bracket. It ends at the first closing
brackets. -/
def passCharacterData (tried : HtmlTried) (cursor : Cursor) : Option Cursor × HtmlTried :=
  match stripPrefix? "[CDATA[".toList cursor.rest with
  | none => (none, tried)
  | some inner =>
    if cursor.pos < tried.characterData then (none, tried)
    else
      let inside := countWhile (· != ']') inner
      let brackets := countWhile (· == ']') (inner.drop inside)
      let after := cursor.skip (7 + inside + brackets)
      if brackets = 0 || after.rest.head? != some '>' then
        (none, { tried with characterData := after.pos })
      else (some (after.skip 1), tried)

/-- Passes a declaration, given its first letter. -/
def passDeclaration (tried : HtmlTried) (cursor : Cursor) : Option Cursor × HtmlTried :=
  if cursor.pos < tried.declaration then (none, tried)
  else match before? ['>'] cursor.rest with
    | some before => (some (cursor.skip (before.length + 1)), tried)
    | none => (none, { tried with declaration := cursor.pos + byteLength cursor.rest })

/-- Passes what follows `<!`. -/
def passMarkedSection (tried : HtmlTried) (cursor : Cursor) : Option Cursor × HtmlTried :=
  match cursor.rest with
  | '-' :: '-' :: _ => passComment tried cursor
  | '[' :: _ => passCharacterData tried cursor
  | c :: _ => if isAsciiLetter c then passDeclaration tried cursor else (none, tried)
  | [] => (none, tried)

/-- Passes a processing instruction, given what follows `<?`. -/
def passInstruction (tried : HtmlTried) (cursor : Cursor) : Option Cursor × HtmlTried :=
  if cursor.pos ≤ tried.instruction then (none, tried)
  else match before? "?>".toList cursor.rest with
    | some before => (some (cursor.skip (before.length + 2)), tried)
    | none =>
      let instruction := (cursor.lastAfter? '?' cursor.rest).getD cursor.pos
      (none, { tried with instruction })

/-- Passes HTML within a paragraph, from the `<` on. -/
def passInlineHtml (holders : List Holder) (tried : HtmlTried) (cursor : Cursor) :
    Option Cursor × HtmlTried :=
  match cursor.rest with
  | '<' :: '!' :: _ => passMarkedSection tried (cursor.skip 2)
  | '<' :: '?' :: _ => passInstruction tried (cursor.skip 2)
  | _ => (passTag (some (Cursor.skipHolders holders)) cursor, tried)

/-! ### HTML blocks -/

/-- How an HTML block ends. -/
inductive HtmlBlockEnd where
  /-- With the line that holds a text. -/
  | holding (text : String)
  /-- Before a blank line. -/
  | blank
  deriving DecidableEq, Repr

/-- The elements whose tags, complete or not, begin a block that a blank line ends. -/
def blockElements : List String := [
  "address", "article", "aside", "base", "basefont", "blockquote", "body", "caption", "center",
  "col", "colgroup", "dd", "details", "dialog", "dir", "div", "dl", "dt", "fieldset",
  "figcaption", "figure", "footer", "form", "frame", "frameset", "h1", "h2", "h3", "h4", "h5",
  "h6", "head", "header", "hr", "html", "iframe", "legend", "li", "link", "main", "menu",
  "menuitem", "nav", "noframes", "ol", "optgroup", "option", "p", "param", "search", "section",
  "summary", "table", "tbody", "td", "tfoot", "th", "thead", "title", "tr", "track", "ul"]

/-- Whether a text after `<` begins with the given element, followed by spacing, `>` or the end
of the text. -/
def beginsElement (name : String) (cs : List Char) : Bool :=
  startsWithCaseless name.toList cs &&
    (cs.drop name.length).head?.all fun c => isSpacing c || c == '>'

/-- The end of the block begun by a text after `<`, for blocks that a closing text ends. -/
def closingText? (cs : List Char) : Option String :=
  if beginsElement "pre" cs then some "</pre>"
  else if beginsElement "style" cs then some "</style>"
  else if beginsElement "script" cs then some "</script>"
  else if beginsElement "textarea" cs then some "</textarea>"
  else if (stripPrefix? "!--".toList cs).isSome then some "-->"
  else if (stripPrefix? "?".toList cs).isSome then some "?>"
  else if (stripPrefix? "![CDATA[".toList cs).isSome then some "]]>"
  else match cs with
    | '!' :: c :: _ => if isAsciiLetter c then some ">" else none
    | _ => none

/-- Whether a text after `<` begins with a tag of a block element, complete or not. -/
def beginsBlockElement (cs : List Char) : Bool :=
  let name := (stripPrefix? ['/'] cs).getD cs
  let n := countWhile isAsciiAlphanumeric name
  let after := name.drop n
  blockElements.contains (String.ofList ((name.take n).map Char.toLower)) &&
    (after.isEmpty || after.head?.any (fun c => c == ' ' || c == '\t' || isEol c || c == '>') ||
      (stripPrefix? "/>".toList after).isSome)

/-- Whether a line that begins with `<` interrupts a paragraph. -/
def htmlInterrupts (cs : List Char) : Bool :=
  match cs with
  | '<' :: rest => (closingText? rest).isSome || beginsBlockElement rest
  | _ => false

/-- The HTML block a line begins, told by how it ends. -/
def htmlBlock? (cursor : Cursor) : Option HtmlBlockEnd :=
  match cursor.rest with
  | '<' :: rest =>
    match closingText? rest with
    | some text => some (.holding text)
    | none =>
      if beginsBlockElement rest then some .blank
      else (passTag none cursor).bind fun after =>
        (blankLine? after.rest).map fun _ => .blank
  | _ => none

end TaggedMemos.Markdown
