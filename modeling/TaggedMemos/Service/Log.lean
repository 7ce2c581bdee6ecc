import TaggedMemos.Service.Strategy

/-!
# The Log

Requests leave records of what they did. A record has a level, says which part of the program
made it, and consists of names and values on one line.
-/

namespace TaggedMemos

/-- How much a record matters. -/
inductive Level where
  /-- Something failed for good. -/
  | error
  /-- Something failed. -/
  | warn
  /-- Something was done. -/
  | info
  /-- Something was looked at. -/
  | debug
  /-- Anything else. -/
  | trace
  deriving DecidableEq, Repr

namespace Level

/-- The place of a level in the order from the most important one. -/
def rank : Level → Nat
  | error => 1
  | warn => 2
  | info => 3
  | debug => 4
  | trace => 5

/-- The name of a level in a record. -/
def label : Level → String
  | error => "ERROR"
  | warn => "WARN"
  | info => "INFO"
  | debug => "DEBUG"
  | trace => "TRACE"

end Level

/-- A record of the log. -/
structure LogRecord where
  /-- How much the record matters. -/
  level : Level
  /-- The part of the program that made the record. -/
  origin : String
  /-- What the record says. -/
  message : String
  deriving DecidableEq, Repr

/-- A record as a line. -/
def LogRecord.line (r : LogRecord) : String :=
  r.level.label ++ " [" ++ r.origin ++ "] " ++ r.message

/-- What happens in a request that is worth a record. -/
inductive Occurrence where
  /-- A memo was created with a number of tags. -/
  | memoCreated (id : MemoId) (tags : Nat)
  /-- A memo got a new text. -/
  | memoUpdated (id : MemoId)
  /-- A memo was deleted. -/
  | memoDeleted (id : MemoId)
  /-- The tags of a number of memos were collected. -/
  | tagsCollected (memos tags : Nat)
  /-- A tag was renamed in a number of memos. -/
  | tagRenamed (old new : String) (moveChildren : Bool) (affected : Nat)
  /-- A tag could not be renamed in a memo, after a number of others. -/
  | tagRenameFailed (id : MemoId) (done : Nat) (fault : Fault)
  /-- A tag was deleted from a number of memos, or with them. -/
  | tagDeleted (path : String) (strategy : DeleteStrategy) (affected : Nat)
  /-- A tag could not be deleted from a memo, after a number of others. -/
  | tagDeleteFailed (id : MemoId) (done : Nat) (fault : Fault)
  /-- A number of memos were deleted, or would have been. -/
  | batchDeleted (path : String) (children dryRun : Bool) (count : Nat)
  /-- A memo could not be deleted, after a number of others. -/
  | batchDeleteFailed (id : MemoId) (done : Nat) (fault : Fault)
  /-- A tag of one memo was renamed in a number of places. -/
  | memoTagRenamed (id : MemoId) (old new : String) (places : Nat)
  /-- A tag of one memo was removed from a number of places. -/
  | memoTagDeleted (id : MemoId) (path : String) (places : Nat)
  /-- The payloads were rebuilt. -/
  | payloadsRebuilt (processed succeeded failed : Nat)
  /-- The payload of a memo could not be rebuilt. -/
  | rebuildFailed (id : MemoId) (fault : Fault)
  deriving DecidableEq, Repr

namespace Occurrence

/-- The level of a record. -/
def level : Occurrence → Level
  | tagsCollected .. => .debug
  | tagRenameFailed .. | tagDeleteFailed .. | batchDeleteFailed .. | rebuildFailed .. => .warn
  | _ => .info

/-- The part of the program that makes a record. -/
def origin : Occurrence → String
  | memoCreated .. | memoUpdated .. | memoDeleted .. => "memotag::commands::memos"
  | tagsCollected .. => "memotag::commands::tags"
  | tagRenamed .. | tagRenameFailed .. => "memotag::commands::rename"
  | tagDeleted .. | tagDeleteFailed .. | batchDeleted .. | batchDeleteFailed .. =>
    "memotag::commands::delete"
  | memoTagRenamed .. | memoTagDeleted .. => "memotag::commands::memo_tags"
  | payloadsRebuilt .. | rebuildFailed .. => "memotag::commands::rebuild"

/-- The name of what happened. -/
def event : Occurrence → String
  | memoCreated .. => "memo_create"
  | memoUpdated .. => "memo_update"
  | memoDeleted .. => "memo_delete"
  | tagsCollected .. => "tag_aggregate"
  | tagRenamed .. | tagRenameFailed .. => "tag_rename"
  | tagDeleted .. | tagDeleteFailed .. => "tag_delete"
  | batchDeleted .. | batchDeleteFailed .. => "tag_batch_delete"
  | memoTagRenamed .. => "memo_tag_rename"
  | memoTagDeleted .. => "memo_tag_delete"
  | payloadsRebuilt .. | rebuildFailed .. => "payload_rebuild"

/-- The particulars of what happened, by name. -/
def particulars : Occurrence → List (String × String)
  | memoCreated id tags => [("memo", id.toText), ("tags", toString tags)]
  | memoUpdated id | memoDeleted id => [("memo", id.toText)]
  | tagsCollected memos tags => [("memos", toString memos), ("tags", toString tags)]
  | tagRenamed old new moveChildren affected =>
    [("old", old), ("new", new), ("move_children", toString moveChildren),
      ("affected", toString affected)]
  | tagRenameFailed id done fault | tagDeleteFailed id done fault
  | batchDeleteFailed id done fault =>
    [("memo", id.toText), ("done", toString done), ("err", fault.message)]
  | tagDeleted path strategy affected =>
    [("path", path), ("strategy", strategy.label), ("affected", toString affected)]
  | batchDeleted path children dryRun count =>
    [("path", path), ("children", toString children), ("dry_run", toString dryRun),
      ("count", toString count)]
  | memoTagRenamed id old new places =>
    [("memo", id.toText), ("old", old), ("new", new), ("nodes", toString places)]
  | memoTagDeleted id path places =>
    [("memo", id.toText), ("path", path), ("nodes", toString places)]
  | payloadsRebuilt processed succeeded failed =>
    [("processed", toString processed), ("succeeded", toString succeeded),
      ("failed", toString failed)]
  | rebuildFailed id fault => [("memo", id.toText), ("err", fault.message)]

/-- Whether what happened is a failure. -/
def isFailure (o : Occurrence) : Bool :=
  o.level == .warn

/-- The record of what happened. -/
def record (o : Occurrence) : LogRecord where
  level := o.level
  origin := o.origin
  message :=
    "event=" ++ o.event ++ " module=commands status=" ++ (if o.isFailure then "error" else "ok") ++
      String.join (o.particulars.map fun (name, value) => " " ++ name ++ "=" ++ value)

end Occurrence

end TaggedMemos
