import TaggedMemos.CommandLine.Style
import TaggedMemos.Service.Request
import TaggedMemos.Text.Fitting

/-!
# Rendering Answers

The text shown for an answer. Memos are listed with one line each, cut to the width of the
output. Tags are listed as a tree: a tag stands two columns to the right of its parent and shows
its last segment only; a tag whose parent is not listed shows its whole path.
-/

namespace TaggedMemos.CommandLine

open Service Text

/-- How answers are shown. -/
structure Display where
  /-- Whether colors are wanted. -/
  colored : Bool := false
  /-- The number of columns. -/
  width : Nat := 80
  /-- Whether tags are listed without their tree. -/
  flat : Bool := false
  deriving DecidableEq, Repr

/-- A text in a style. -/
def Display.paint (d : Display) (style : Style) (text : String) : String :=
  painted d.colored style text

/-- Texts with blanks between them. -/
def spaced (texts : List String) : String :=
  String.intercalate " " texts

/-! ### Memos -/

/-- The first line of a text that is not blank. -/
def firstLine (content : String) : List Char :=
  ((lines content.toList).find? (!isBlankText ·)).getD []

/-- The columns of an identifier in a list of memos. -/
def idWidth : Nat := 8

/-- A memo in a list. -/
def memoLine (d : Display) (m : Memo) : String :=
  let tags := spaced m.payload.tags
  let room := d.width - (idWidth + 2 + shownWidth tags.toList + 2)
  let preview := String.ofList (fit (max room 10) ['…'] (firstLine m.content))
  d.paint .dimmed m.id.short ++ "  " ++ preview ++ "  " ++ d.paint .cyan tags ++ "\n"

/-- Memos, one in a line. -/
def memoList (d : Display) (ms : List Memo) : String :=
  if ms.isEmpty then d.paint .dimmed "No memos." ++ "\n"
  else String.join (ms.map (memoLine d))

/-- A text that ends in a line ending. -/
def withNewline (content : String) : String :=
  if content.toList.getLast? == some '\n' then content else content ++ "\n"

/-- A memo in full. -/
def memoText (d : Display) (m : Memo) : String :=
  d.paint .bold m.name ++ "\n" ++
    String.join (m.parent.toList.map fun parent =>
      d.paint .dimmed "comment on" ++ " " ++ MemoName.ofId parent ++ "\n") ++
    d.paint .dimmed "updated" ++ " " ++ m.updated.toMinute ++ "\n" ++
    (if m.payload.tags.isEmpty then ""
      else d.paint .dimmed "tags" ++ " " ++ d.paint .cyan (spaced m.payload.tags) ++ "\n") ++
    "\n" ++ withNewline m.content

/-! ### Tags -/

/-- The number of memos with a tag, and the total where it differs. -/
def counts (node : TagNode) : String :=
  if node.totalCount = node.directCount then toString node.directCount
  else toString node.directCount ++ "/" ++ toString node.totalCount

/-- The number of listed ancestors from a path upwards, where `seen` are not counted again;
`fuel` bounds it. -/
def depthFrom (nodes : List TagNode) : Nat → List String → Option String → Nat
  | 0, _, _ => 0
  | _ + 1, _, none => 0
  | fuel + 1, seen, some path =>
    match nodes.find? (·.path == path) with
    | none => 0
    | some node =>
      if seen.contains path then 0
      else depthFrom nodes fuel (path :: seen) node.parentPath + 1

/-- The number of listed ancestors of a tag. -/
def depth (nodes : List TagNode) (node : TagNode) : Nat :=
  depthFrom nodes nodes.length [] node.parentPath

/-- The name of a tag in a tree. -/
def label (depth : Nat) (node : TagNode) : String :=
  if depth = 0 then node.path else node.segments.getLast?.getD ""

/-- A tag in a list. -/
def tagLine (d : Display) (nodes : List TagNode) (node : TagNode) : String :=
  let level := if d.flat then 0 else depth nodes node
  let ids :=
    if node.memoIds.isEmpty then ""
    else "  " ++ d.paint .dimmed (spaced (node.memoIds.map MemoId.toText))
  String.ofList (List.replicate (2 * level) ' ') ++ d.paint .bold (label level node) ++ " " ++
    d.paint .dimmed (counts node) ++ ids ++ "\n"

/-- Tags, one in a line, and their number. -/
def tagList (d : Display) (nodes : List TagNode) : String :=
  if nodes.isEmpty then d.paint .dimmed "No tags." ++ "\n"
  else
    String.join (nodes.map (tagLine d nodes)) ++
      d.paint .dimmed (toString nodes.length ++ " tags") ++ "\n"

/-- A tag with its place in the hierarchy. -/
def tagText (d : Display) (node : TagNode) : String :=
  d.paint .bold node.path ++ "\n" ++
    "  direct " ++ toString node.directCount ++ "  total " ++ toString node.totalCount ++ "\n" ++
    String.join (node.parentPath.toList.map fun parent => "  parent " ++ parent ++ "\n") ++
    (if node.childPaths.isEmpty then "" else "  children " ++ spaced node.childPaths ++ "\n") ++
    String.join (node.memoIds.map fun id => "  " ++ MemoName.ofId id ++ "\n")

/-! ### Changes -/

/-- That a tag was renamed. -/
def renamingText (d : Display) (r : Renaming) : String :=
  d.paint .green "Renamed" ++ " " ++ r.old ++ " → " ++ r.new ++ "\n" ++
    toString r.memos.length ++ " memo(s) updated\n"

/-- That a tag was deleted. -/
def deletionText (d : Display) (r : TagDeletion) : String :=
  if r.paths.isEmpty then d.paint .dimmed "No memos carried that tag." ++ "\n"
  else
    d.paint .green "Deleted" ++ " " ++ spaced r.paths ++ " from " ++ toString r.memos.length ++
      " memo(s)\n"

/-- That memos were deleted. -/
def batchText (d : Display) (r : BatchDeletion) : String :=
  (if r.dryRun then d.paint .yellow "Would delete" else d.paint .green "Deleted") ++ " " ++
    toString r.count ++ " memo(s)\n" ++
    String.join (r.memos.map fun id => "  " ++ MemoName.ofId id ++ "\n") ++
    (if r.paths.isEmpty then "" else d.paint .dimmed "tags" ++ " " ++ spaced r.paths ++ "\n")

/-- Whether a memo was edited. -/
def retaggingText (d : Display) (r : Retagging) : String :=
  let name := MemoName.ofId r.memo
  if r.changed then d.paint .green "Updated" ++ " " ++ name ++ "\n"
  else d.paint .dimmed (name ++ " does not carry that tag") ++ "\n"

/-- How many payloads were computed again. -/
def rebuildText (d : Display) (r : RebuildReport) : String :=
  let failed := toString r.failed ++ " failed"
  d.paint .green "Rebuilt" ++ " " ++ toString r.processed ++ " memo(s): " ++
    toString r.succeeded ++ " ok, " ++ (if r.failed = 0 then failed else d.paint .red failed) ++
    "\n"

/-- The text shown for an answer. -/
def answerText (d : Display) : Answer → String
  | .memo m => memoText d m
  | .memos ms => memoList d ms
  | .deleted id => "Deleted " ++ MemoName.ofId id ++ "\n"
  | .tags nodes => tagList d nodes
  | .tag node => tagText d node
  | .renamed r => renamingText d r
  | .tagDeleted r => deletionText d r
  | .batchDeleted r => batchText d r
  | .retagged r => retaggingText d r
  | .rebuilt r => rebuildText d r

end TaggedMemos.CommandLine
