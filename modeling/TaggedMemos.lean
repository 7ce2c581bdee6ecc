import TaggedMemos.Main
import TaggedMemos.Service.Medium
import TaggedMemos.Proofs.Outcome
import TaggedMemos.Proofs.Saves
import TaggedMemos.Proofs.Collection
import TaggedMemos.Proofs.History
import TaggedMemos.Proofs.Revision
import TaggedMemos.Proofs.InSync
import TaggedMemos.Proofs.Scan
import TaggedMemos.Proofs.Slice
import TaggedMemos.Proofs.EventStream
import TaggedMemos.Proofs.Leaves
import TaggedMemos.Proofs.Lossless
import TaggedMemos.Proofs.Path
import TaggedMemos.Proofs.Payload
import TaggedMemos.Proofs.Sketch
import TaggedMemos.Proofs.TagText
import TaggedMemos.Proofs.TagEnds
import TaggedMemos.Proofs.Retag
import TaggedMemos.Proofs.Leftovers
import TaggedMemos.Proofs.EditInSync
import TaggedMemos.Proofs.Rewriting
import TaggedMemos.Proofs.Index
import TaggedMemos.Proofs.Unmarking
import TaggedMemos.Proofs.Origin
import TaggedMemos.Proofs.Step
import TaggedMemos.Proofs.Comments
import TaggedMemos.Proofs.Course
import TaggedMemos.Proofs.Sweeps
import TaggedMemos.Proofs.BatchDeletion
import TaggedMemos.Proofs.Isolation
import TaggedMemos.Proofs.Lifetime
import TaggedMemos.Proofs.Rebuilding
import TaggedMemos.Proofs.Listing
import TaggedMemos.Proofs.PathOrder
import TaggedMemos.Proofs.TagTree
import TaggedMemos.Proofs.OneMemo
import TaggedMemos.Proofs.EditedText
import TaggedMemos.Proofs.MarkerText
import TaggedMemos.Proofs.LengthLimit
import TaggedMemos.Proofs.Totals
import TaggedMemos.Proofs.Traversal
import TaggedMemos.Proofs.Restriction
import TaggedMemos.Proofs.Replacement
import TaggedMemos.Proofs.Stripping
import TaggedMemos.Proofs.MarkerEdits
import TaggedMemos.Proofs.InlineGrammar
import TaggedMemos.Proofs.MemoFile
import TaggedMemos.Proofs.EditedPayload
import TaggedMemos.Proofs.Rescanning
import TaggedMemos.Proofs.PartialReplacement
import TaggedMemos.Proofs.TypedTag
import TaggedMemos.Proofs.BatchReport
import TaggedMemos.Proofs.Scaffold
import TaggedMemos.Proofs.ListItems
import TaggedMemos.Proofs.FallibleStack
import TaggedMemos.Proofs.Matching
import TaggedMemos.Proofs.TagPlaces
import TaggedMemos.Proofs.FirstOccurrence
import TaggedMemos.Proofs.Memberships
import TaggedMemos.Proofs.Contents
import TaggedMemos.Proofs.PathGrammar
import TaggedMemos.Proofs.PathRelations
import TaggedMemos.Proofs.Normalization
