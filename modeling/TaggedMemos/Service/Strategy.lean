import TaggedMemos.Service.Fault

/-!
# Ways of Deleting a Tag

A tag is deleted by taking its marker out of every memo, or by deleting the memos that carry it.
A caller names the way in words. The way that is named "unspecified" can be read, and is refused
when it is used.
-/

namespace TaggedMemos

/-- A way of deleting a tag. -/
inductive DeleteStrategy where
  /-- None of the others. -/
  | unspecified
  /-- The markers are taken out of the memos. -/
  | removeFromContent
  /-- The memos are deleted. -/
  | deleteMemos
  deriving DecidableEq, Repr

namespace DeleteStrategy

/-- The words for a way of deleting, in lower case and with hyphens. -/
def standardWords (text : String) : String :=
  String.ofList (text.toList.map fun c => if c = '_' then '-' else c.toLower)

/-- The way of deleting that a text names. Letters count alike in either case, and an underscore
counts as a hyphen. -/
def ofText (text : String) : Except Fault DeleteStrategy :=
  match standardWords text with
  | "unspecified" => .ok unspecified
  | "remove-from-content" | "remove" => .ok removeFromContent
  | "delete-related-memos" | "delete-memos" => .ok deleteMemos
  | other => .error (.invalidArgument (.strategyUnknown other))

/-- The name of a way of deleting in log records. -/
def label : DeleteStrategy → String
  | unspecified => "Unspecified"
  | removeFromContent => "RemoveFromContent"
  | deleteMemos => "DeleteRelatedMemos"

end DeleteStrategy

end TaggedMemos
