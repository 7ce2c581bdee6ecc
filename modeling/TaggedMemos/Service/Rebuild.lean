import TaggedMemos.Service.Store

/-!
# Rebuilding Payloads

The payload of every memo, of whatever owner and comments included, is computed again from the
text. Memos are taken from the store page by page. A memo that fails is counted and passed over.
-/

namespace TaggedMemos.Service

open TaggedMemos.Action

/-- The answer to a rebuild. -/
structure RebuildReport where
  /-- The number of memos treated. -/
  processed : Nat := 0
  /-- The number of memos with a new payload. -/
  succeeded : Nat := 0
  /-- The number of memos left as they were. -/
  failed : Nat := 0
  deriving DecidableEq, Repr

/-- Computes the payload of a memo again. -/
def rebuildMemo (m : Memo) : Action Unit := do
  let payload ← payloadOf m.content
  Store.update m.id { payload := some payload }

/-- Treats the memos of a page. -/
def rebuildPage (report : RebuildReport) : List Memo → Action RebuildReport
  | [] => return report
  | m :: rest => do
    ensureActive
    let report := { report with processed := report.processed + 1 }
    let report ←
      try
        rebuildMemo m
        pure { report with succeeded := report.succeeded + 1 }
      catch fault =>
        note (.rebuildFailed m.id fault)
        pure { report with failed := report.failed + 1 }
    rebuildPage report rest

/-- Treats the memos from `offset` on, in pages of `size` memos and `pages` pages at most. A page
that is not full is the last one. -/
def rebuildFrom (size : Nat) : Nat → Nat → RebuildReport → Action RebuildReport
  | 0, _, report => return report
  | pages + 1, offset, report => do
    let page ← Store.list (Query.page offset size)
    let report ← rebuildPage report page
    if page.length < size then return report
    else rebuildFrom size pages (offset + page.length) report

/-- Computes every payload again. There are no more full pages than memos. -/
def rebuildPayloads : Action RebuildReport := do
  let size := max 1 (← read).settings.rebuildBatch
  let memos ← load
  let report ← rebuildFrom size (memos.length + 1) 0 {}
  note (.payloadsRebuilt report.processed report.succeeded report.failed)
  return report

end TaggedMemos.Service
