import TaggedMemos.Memo.File
import TaggedMemos.Service.Request

/-!
# Answers as Records

The JSON value for an answer. Memos have the form they have in the memo file.
-/

namespace TaggedMemos

open Json Service

/-- Identifiers as an array of texts. -/
def idsJson (ids : List MemoId) : Value :=
  .strings (ids.map MemoId.toText)

/-- A tag as a record. -/
def TagNode.toJson (node : TagNode) : Value :=
  .record ([("path", .string node.path), ("segments", .strings node.segments),
      ("memo_ids", idsJson node.memoIds), ("direct_count", .nat node.directCount),
      ("total_count", .nat node.totalCount)] ++
    (node.parentPath.toList.map fun parent => ("parent_path", .string parent)) ++
    [("child_paths", .strings node.childPaths)])

/-- An answer as a value. -/
def Answer.toJson : Answer → Value
  | .memo m => m.toJson
  | .memos ms => .array (ms.map Memo.toJson)
  | .deleted id => .string id.toText
  | .tags nodes =>
    .record [("tags", .array (nodes.map TagNode.toJson)), ("total_count", .nat nodes.length)]
  | .tag node => node.toJson
  | .renamed r =>
    .record [("affected_memo_ids", idsJson r.memos),
      ("renamed_paths", .record [(r.old, .string r.new)])]
  | .tagDeleted r =>
    .record [("affected_memo_ids", idsJson r.memos), ("deleted_tag_paths", .strings r.paths)]
  | .batchDeleted r =>
    .record [("deleted_memo_ids", idsJson r.memos), ("deleted_count", .nat r.count),
      ("affected_tag_paths", .strings r.paths), ("dry_run", .bool r.dryRun)]
  | .retagged r => .record [("memo_id", .string r.memo.toText), ("changed", .bool r.changed)]
  | .rebuilt r =>
    .record [("processed", .nat r.processed), ("succeeded", .nat r.succeeded),
      ("failed", .nat r.failed)]

end TaggedMemos
