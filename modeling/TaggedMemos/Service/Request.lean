import TaggedMemos.Service.Keeping
import TaggedMemos.Service.Listing
import TaggedMemos.Service.Rebuild
import TaggedMemos.Service.Retag
import TaggedMemos.Service.Sweep

/-!
# Requests

Everything that a client can ask for is a request, and what comes back is an answer of the same
shape or a fault. A history of a store is a list of requests, each with its circumstances.
-/

namespace TaggedMemos

open Service

/-- What a client asks for. -/
inductive Request where
  /-- A new memo, a comment if the name of another memo is given. -/
  | createMemo (content : String) (parent : Option String)
  /-- A new text for a memo. -/
  | updateMemo (name content : String)
  /-- A memo. -/
  | getMemo (name : String)
  /-- The caller's memos, or those with a tag. -/
  | listMemos (tag : Option String)
  /-- The end of a memo. -/
  | deleteMemo (name : String)
  /-- The caller's tags. -/
  | listTags (query : TagQuery)
  /-- One of the caller's tags. -/
  | getTag (path : String) (withIds : Bool)
  /-- A new path for a tag, in every memo of the caller. -/
  | renameTag (old new : String) (moveChildren : Bool)
  /-- The end of a tag, in every memo of the caller. -/
  | deleteTag (path : String) (strategy : DeleteStrategy)
  /-- The end of every memo of the caller with a tag. -/
  | batchDelete (path : String) (children dryRun : Bool)
  /-- A new path for a tag, in one memo. -/
  | renameMemoTag (name old new : String)
  /-- The end of a tag, in one memo. -/
  | deleteMemoTag (name path : String)
  /-- New payloads for all memos. -/
  | rebuildPayloads
  deriving DecidableEq, Repr

/-- What a client gets. -/
inductive Answer where
  /-- A memo. -/
  | memo (m : Memo)
  /-- Memos in order of creation. -/
  | memos (ms : List Memo)
  /-- The memo that is no more. -/
  | deleted (id : MemoId)
  /-- Tags in ascending order of path. -/
  | tags (nodes : List TagNode)
  /-- A tag. -/
  | tag (node : TagNode)
  /-- A tag was renamed. -/
  | renamed (result : Renaming)
  /-- A tag was deleted. -/
  | tagDeleted (deletion : TagDeletion)
  /-- Memos were deleted. -/
  | batchDeleted (deletion : BatchDeletion)
  /-- A memo was edited. -/
  | retagged (retagging : Retagging)
  /-- Payloads were computed again. -/
  | rebuilt (report : RebuildReport)
  deriving DecidableEq, Repr

/-- What is done for a request. -/
def Request.perform : Request → Action Answer
  | createMemo content parent => return .memo (← Service.createMemo content parent)
  | updateMemo name content => return .memo (← Service.updateMemo name content)
  | getMemo name => return .memo (← Service.getMemo name)
  | listMemos tag => return .memos (← Service.listMemos tag)
  | deleteMemo name => return .deleted (← Service.deleteMemo name)
  | listTags query => return .tags (← Service.listTags query)
  | getTag path withIds => return .tag (← Service.getTag path withIds)
  | renameTag old new moveChildren => return .renamed (← Service.renameTag old new moveChildren)
  | deleteTag path strategy => return .tagDeleted (← Service.deleteTag path strategy)
  | batchDelete path children dryRun =>
    return .batchDeleted (← Service.batchDelete path children dryRun)
  | renameMemoTag name old new => return .retagged (← Service.renameMemoTag name old new)
  | deleteMemoTag name path => return .retagged (← Service.deleteMemoTag name path)
  | rebuildPayloads => return .rebuilt (← Service.rebuildPayloads)

end TaggedMemos
