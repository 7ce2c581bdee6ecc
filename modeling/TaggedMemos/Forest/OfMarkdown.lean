import TaggedMemos.Forest.Assembly
import TaggedMemos.Markdown.Events

/-!
# Forests of Texts

The forest of a memo's text is assembled from the events of its markdown.
-/

namespace TaggedMemos

/-- The forest of a text. -/
def Forest.ofMarkdown (text : String) : Except ParseError Forest :=
  Forest.ofEvents text (Markdown.events text)

end TaggedMemos
