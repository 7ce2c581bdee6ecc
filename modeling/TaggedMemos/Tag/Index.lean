import TaggedMemos.Tag.Path
import TaggedMemos.Memo.Id

/-!
# The Tag Index

The index of a list of memos maps each tag path to the memos that carry it. It is computed from
the tags recorded with the memos whenever it is asked for and never stored. A path is in the
index only if some memo carries it: `/work/a` alone makes no entry for `/work`.

An index is a list of entries in ascending order of path. The order is that of code points,
which is the order of UTF-8 bytes.
-/

namespace TaggedMemos

/-- A tag path and the memos carrying it. -/
structure TagNode where
  /-- The path. -/
  path : String
  /-- The segments of the path. -/
  segments : List String
  /-- The memos carrying exactly this path, in the order they were met. -/
  memoIds : List MemoId
  /-- The number of those memos. -/
  directCount : Nat
  /-- The number of those memos, with the counts of the entries below added by the hierarchy. -/
  totalCount : Nat
  /-- The path of the entry above, if the index has one. -/
  parentPath : Option String
  /-- The paths of the entries directly below. -/
  childPaths : List String
  deriving DecidableEq, Repr

namespace TagNode

/-- A path that no memo carries yet. -/
def empty (path : String) : TagNode :=
  { path, segments := TagPath.segments path, memoIds := [], directCount := 0, totalCount := 0,
    parentPath := none, childPaths := [] }

/-- Records a memo, once. -/
def addMemo (node : TagNode) (id : MemoId) : TagNode :=
  if node.memoIds.contains id then node
  else
    { node with
      memoIds := node.memoIds ++ [id]
      directCount := node.directCount + 1
      totalCount := node.directCount + 1 }

end TagNode

/-- Entries in ascending order of path, one for each path. -/
abbrev TagIndex := List (String × TagNode)

namespace TagIndex

/-- The entry of a path. -/
def find? (index : TagIndex) (path : String) : Option TagNode :=
  match index with
  | [] => none
  | (key, node) :: rest => if key = path then some node else find? rest path

/-- The paths of the index. -/
def keys (index : TagIndex) : List String :=
  index.map (·.1)

/-- Puts an entry at its place in the order, in place of one with the same path. -/
def insert (path : String) (node : TagNode) : TagIndex → TagIndex
  | [] => [(path, node)]
  | (key, other) :: rest =>
    if path = key then (path, node) :: rest
    else if path < key then (path, node) :: (key, other) :: rest
    else (key, other) :: insert path node rest

/-- Records that a memo carries a tag. The empty tag is skipped, and a tag without a slash in
front gets one. -/
def record (id : MemoId) (index : TagIndex) (tag : String) : TagIndex :=
  if tag.isEmpty then index
  else
    let path := TagPath.withSlash tag
    index.insert path (((index.find? path).getD (TagNode.empty path)).addMemo id)

/-- The index of a list of memos, each given by its identifier and its tags. -/
def ofMemos (memos : List (MemoId × List String)) : TagIndex :=
  memos.foldl (fun index memo => memo.2.foldl (record memo.1) index) []

/-- The entries whose path begins with `start`, as a text: `/work` keeps `/workshop`. A start
without a slash in front gets one, and the empty start keeps everything. -/
def startingWith (index : TagIndex) (start : String) : TagIndex :=
  if start.isEmpty then index
  else index.filter fun entry => (TagPath.withSlash start).toList.isPrefixOf entry.1.toList

end TagIndex

end TaggedMemos
