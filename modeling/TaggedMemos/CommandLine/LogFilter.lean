import TaggedMemos.Service.Log
import TaggedMemos.Text.Blank
import TaggedMemos.Text.Pattern.Reader
import TaggedMemos.Text.Substring

/-!
# Log Filters

A filter decides which records are shown. It is written as a list of rules with commas between
them. A rule is a level, which holds for every part of the program, the name of a part, all of
whose records are shown, or a name and a level with an equals sign between. Of the rules that
apply to a record, the one with the longest name decides. After a slash a pattern can follow that
has to be found in a record.
-/

namespace TaggedMemos.CommandLine

open Text

/-- A rule: the least important level shown of a part of the program. -/
structure LogRule where
  /-- What the name of the part begins with; empty for every part. -/
  origin : List Char
  /-- The rank of the level; zero shows nothing. -/
  rank : Nat
  deriving DecidableEq, Repr

/-- Which records are shown. -/
structure LogFilter where
  /-- The rules, those with the longest names first. -/
  rules : List LogRule
  /-- What has to be found in a record. -/
  pattern : Pattern := .empty
  deriving DecidableEq, Repr

namespace LogFilter

/-- The rank of a level given by name. -/
def rank? (cs : List Char) : Option Nat :=
  match String.ofList (cs.map Char.toLower) with
  | "off" => some 0
  | "error" => some 1
  | "warn" => some 2
  | "info" => some 3
  | "debug" => some 4
  | "trace" => some 5
  | _ => none

/-- The rank that shows everything. -/
def everything : Nat := 5

/-- A rule, unless it is malformed. -/
def rule? (cs : List Char) : Option LogRule :=
  match (splitAt '=' cs).map trim with
  | [name] =>
    if name.any isBlank then none
    else match rank? name with
      | some rank => some ⟨[], rank⟩
      | none => some ⟨name, everything⟩
  | [name, level] =>
    if name.any isBlank then none
    else if level.isEmpty then some ⟨name, everything⟩
    else (rank? level).map fun rank => ⟨name, rank⟩
  | _ => none

/-- A filter, unless it is malformed. -/
def ofText? (spec : String) : Option LogFilter := do
  let (rules, written) ← match splitAt '/' spec.toList with
    | [rules] => some (rules, [])
    | [rules, written] => some (rules, written)
    | _ => none
  let parts := ((splitAt ',' rules).map trim).filter (!·.isEmpty)
  let rules ← parts.mapM rule?
  let pattern ← Pattern.ofText? written
  return ⟨rules.mergeSort fun a b => decide (b.origin.length ≤ a.origin.length), pattern⟩

/-- Whether a record is shown. -/
def shows (filter : LogFilter) (r : LogRecord) : Bool :=
  match filter.rules.find? fun rule => rule.origin.isPrefixOf r.origin.toList with
  | some rule => decide (r.level.rank ≤ rule.rank) && filter.pattern.isFoundIn r.message.toList
  | none => false

/-- The filter for a verbosity and the value of the variable that holds a filter. -/
def chosen (verbosity : Nat) (env : Option String) : String :=
  match verbosity with
  | 0 => env.getD "warn"
  | 1 => "info"
  | _ => "debug"

end LogFilter

end TaggedMemos.CommandLine
