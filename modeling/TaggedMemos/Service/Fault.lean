import TaggedMemos.Forest.Assembly
import TaggedMemos.Memo.Memo
import TaggedMemos.Tag.Validation

/-!
# Faults

Why a request fails. A fault says what went wrong; its wording is a function of it, and so is the
coarse kind by which a client decides what to do. Inside a request over several memos a fault is
wrapped together with the memo that it struck, which leaves its kind unchanged.
-/

namespace TaggedMemos

/-! ### Arguments -/

/-- What is wrong with an argument of a request. -/
inductive Complaint where
  /-- The text is longer than allowed. -/
  | tooLong (length limit : Nat)
  /-- The name of a memo cannot be read. -/
  | badName (name : String)
  /-- The name stands for every memo where one is asked for. -/
  | notSingle (name : String)
  /-- A tag path is refused. -/
  | badPath (field : String) (reason : TagPath.Rejection)
  /-- No path is given. -/
  | pathMissing
  /-- No way of deleting is chosen. -/
  | strategyMissing
  /-- The way of deleting does not exist. -/
  | strategyUnknown (text : String)
  /-- A tag of a single memo is to be renamed in every memo. -/
  | renameEverywhere
  /-- A tag of a single memo is to be removed from every memo. -/
  | deleteEverywhere
  /-- No text is given. -/
  | contentMissing
  deriving DecidableEq, Repr

/-- The wording of a complaint. -/
def Complaint.message : Complaint → String
  | tooLong length limit =>
    "content too long (" ++ toString length ++ " characters, limit " ++ toString limit ++ ")"
  | badName name => "invalid memo name: " ++ name
  | notSingle name => name ++ " does not name a single memo"
  | badPath field reason => field ++ ": " ++ reason.message
  | pathMissing => "tag_path is required"
  | strategyMissing => "unsupported delete strategy"
  | strategyUnknown text => "unsupported delete strategy: " ++ text
  | renameEverywhere =>
    "Global tag operations are not supported on memos/-. " ++
      "Use rename_tag (memotag rename) to rename a tag across all memos."
  | deleteEverywhere =>
    "Global tag operations are not supported on memos/-. " ++
      "Use delete_tag (memotag delete) to remove a tag from all memos, " ++
      "or batch_delete_by_tag (memotag batch-delete) to delete the memos."
  | contentMissing => "no content given: pass it as arguments or pipe it on stdin"

/-! ### Faults -/

/-- What a store refuses. -/
inductive StoreRefusal where
  /-- A new memo has the identifier of another one. -/
  | inUse (id : MemoId)
  /-- Writing is made to fail. -/
  | simulated
  deriving DecidableEq, Repr

/-- The wording of a refusal. -/
def StoreRefusal.message : StoreRefusal → String
  | inUse id => "memo " ++ id.toText ++ " already exists"
  | simulated => "Simulated write error"

/-- Why a request fails. -/
inductive Fault where
  /-- An argument is wrong. -/
  | invalidArgument (complaint : Complaint)
  /-- The memo does not exist. -/
  | memoNotFound (id : MemoId)
  /-- No memo of the caller carries the tag that is asked for. -/
  | tagNotFound (path : String)
  /-- No memo of the caller carries the tag that is to be changed. -/
  | noMemosWithTag (path : String)
  /-- The memo belongs to somebody else. -/
  | permissionDenied (id : MemoId)
  /-- The text of a memo cannot be read. -/
  | parse (reason : ParseError)
  /-- The forest of a memo cannot be written. -/
  | restore
  /-- The medium cannot be reached. -/
  | io (reason : String)
  /-- The memo file cannot be read. -/
  | serialization (reason : String)
  /-- The store refuses. -/
  | store (refusal : StoreRefusal)
  /-- The settings cannot be read. -/
  | config (reason : String)
  /-- The caller gave up. -/
  | cancelled
  /-- A request over several memos failed at one of them. -/
  | memoWrite (id : MemoId) (cause : Fault)
  deriving DecidableEq, Repr

instance : Inhabited Fault := ⟨.cancelled⟩

/-- What a client can make of a fault. -/
inductive FaultKind where
  /-- The request is wrong. -/
  | invalidArgument
  /-- The thing asked for does not exist. -/
  | notFound
  /-- The caller may not do this. -/
  | permissionDenied
  /-- Something else is wrong. -/
  | internal
  /-- The caller gave up. -/
  | cancelled
  deriving DecidableEq, Repr

namespace Fault

/-- The kind of a fault. -/
def kind : Fault → FaultKind
  | invalidArgument _ => .invalidArgument
  | memoNotFound _ | tagNotFound _ | noMemosWithTag _ => .notFound
  | permissionDenied _ => .permissionDenied
  | parse _ | restore | io _ | serialization _ | store _ | config _ => .internal
  | cancelled => .cancelled
  | memoWrite _ cause => cause.kind

/-- The wording of a fault. -/
def message : Fault → String
  | invalidArgument complaint => "invalid argument: " ++ complaint.message
  | memoNotFound id => "memo not found: " ++ id.toText
  | tagNotFound path => "tag not found: " ++ path
  | noMemosWithTag path => "no memos found with tag: " ++ path
  | permissionDenied id => "permission denied: memo " ++ id.toText ++ " belongs to another user"
  | parse reason => "failed to parse memo content: " ++ reason.message
  | restore => "failed to restore memo content"
  | io reason => "IO error: " ++ reason
  | serialization reason => "Serialization error: " ++ reason
  | store refusal => "Store error: " ++ refusal.message
  | config reason => "Config error: " ++ reason
  | cancelled => "operation cancelled"
  | memoWrite id cause => "failed to write memo " ++ id.toText ++ ": " ++ cause.message

end Fault

end TaggedMemos
