import TaggedMemos.Markdown.Html
import TaggedMemos.Markdown.LineStart

/-!
# Interruption of Paragraphs

A paragraph goes on with the next line unless that line begins something else. A list item
interrupts a paragraph only if it cannot be mistaken for text, unless the line is outside the
containers of the paragraph.
-/

namespace TaggedMemos.Markdown

/-- Whether a line after its margin interrupts a paragraph; `inside` says whether the line
continues all containers of the paragraph. -/
def interruptsParagraph (inside : Bool) (cs : List Char) : Bool :=
  (eol? cs).isSome || (thematicBreak? cs).isSome || (headingLevel? cs).isSome ||
    (codeFence? cs).isSome || cs.head? == some '>' ||
    (itemStart? cs).any (fun item => !inside || item.interrupts) || htmlInterrupts cs

end TaggedMemos.Markdown
