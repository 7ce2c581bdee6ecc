import TaggedMemos.Text.Substring

/-!
# Styles

Pieces of the output stand out by a style where colors are wanted, and are plain text otherwise.
-/

namespace TaggedMemos.CommandLine

open Text

/-- A style. -/
inductive Style where
  /-- Heavier than usual. -/
  | bold
  /-- Lighter than usual. -/
  | dimmed
  /-- Red. -/
  | red
  /-- Green. -/
  | green
  /-- Yellow. -/
  | yellow
  /-- Cyan. -/
  | cyan
  deriving DecidableEq, Repr

/-- The number of a style. -/
def Style.code : Style → String
  | bold => "1"
  | dimmed => "2"
  | red => "31"
  | green => "32"
  | yellow => "33"
  | cyan => "36"

/-- The sequence that begins a style. -/
def Style.start (style : Style) : List Char :=
  '\x1b' :: '[' :: style.code.toList ++ ['m']

/-- The sequence that ends every style. -/
def styleEnd : List Char := ['\x1b', '[', '0', 'm']

/-- A text in a style. A text that ends every style itself gets the style again. -/
def painted (colored : Bool) (style : Style) (text : String) : String :=
  if colored then
    String.ofList
      (style.start ++ replaceAll styleEnd (styleEnd ++ style.start) text.toList ++ styleEnd)
  else text

/-- Whether an environment asks for colors. The output itself never calls for them. -/
def wantsColors (env : String → Option String) : Bool :=
  (env "CLICOLOR_FORCE").any (· != "0")

end TaggedMemos.CommandLine
