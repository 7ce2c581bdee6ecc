import TaggedMemos.Memo.File
import TaggedMemos.Service.Fault
import TaggedMemos.Service.Settings
import TaggedMemos.Text.Blank
import TaggedMemos.Toml.Document

/-!
# Configuration

Settings come from variables of the environment, from a TOML file in the data directory and from
defaults, in this order of precedence. Both sources are checked in full: a value that cannot be
read is a fault even where another source overrides it. Keys that mean nothing here are ignored.
-/

namespace TaggedMemos

open Text

/-- Settings of which some are made. -/
structure PartialSettings where
  /-- The number of characters that a memo may have at most. -/
  contentLimit : Option Nat := none
  /-- The caller, where none is named. -/
  defaultUser : Option UserId := none
  /-- The number of memos that a rebuild takes from the store at a time. -/
  rebuildBatch : Option Nat := none
  deriving DecidableEq, Repr

namespace PartialSettings

/-- The settings made in one place or else in another. -/
def orElse (first second : PartialSettings) : PartialSettings where
  contentLimit := first.contentLimit.orElse fun _ => second.contentLimit
  defaultUser := first.defaultUser.orElse fun _ => second.defaultUser
  rebuildBatch := first.rebuildBatch.orElse fun _ => second.rebuildBatch

/-- Settings completed by the defaults. -/
def complete (s : PartialSettings) : Settings :=
  let standard : Settings := {}
  { contentLimit := s.contentLimit.getD standard.contentLimit
    defaultUser := s.defaultUser.getD standard.defaultUser
    rebuildBatch := s.rebuildBatch.getD standard.rebuildBatch }

end PartialSettings

/-! ### Values -/

/-- A count: a number of 64 bits that is not negative. -/
def countOfInt? (n : Int) : Option Nat :=
  if 0 ≤ n ∧ n < 18446744073709551616 then some n.toNat else none

/-- The number of a user. -/
def userOfInt? (n : Int) : Option UserId :=
  if isUserId n then some n else none

/-- A fault in the configuration. -/
def badSetting (name : String) : Fault :=
  .config ("invalid value for " ++ name)

/-! ### The environment -/

/-- The setting that a variable makes. An empty variable makes none. -/
def ofVariable (name : String) (read : Int → Option α) :
    Option String → Except Fault (Option α)
  | none => .ok none
  | some text =>
    let cs := trim text.toList
    if text.isEmpty then .ok none
    else match (signedDecimal? cs).bind read with
      | some value => .ok (some value)
      | none => .error (badSetting name)

/-- The count that a variable makes. A count is written without a minus, zero included. -/
def countOfVariable (name : String) (text : Option String) : Except Fault (Option Nat) :=
  if text.any fun t => (trim t.toList).head? == some '-' then .error (badSetting name)
  else ofVariable name countOfInt? text

/-- The settings that variables make. -/
def PartialSettings.ofEnvironment (env : String → Option String) :
    Except Fault PartialSettings := do
  let limit := "MEMOTAG_CONTENT_LENGTH_LIMIT"
  let user := "MEMOTAG_USER"
  return {
    contentLimit := ← countOfVariable limit (env limit)
    defaultUser := ← ofVariable user userOfInt? (env user) }

/-! ### The file -/

/-- The setting that an entry of the file makes. -/
def ofEntry (name : String) (read : Int → Option α) (table : Toml.Table) :
    Except Fault (Option α) :=
  match table.find? name with
  | none => .ok none
  | some (.value (.integer n)) =>
    match read n with
    | some value => .ok (some value)
    | none => .error (badSetting name)
  | some _ => .error (badSetting name)

/-- The settings that the text of a file makes. -/
def PartialSettings.ofFile (text : String) : Except Fault PartialSettings :=
  match Toml.Table.ofText? text with
  | none => .error (.config "the file is not valid TOML")
  | some table => do
    return {
      contentLimit := ← ofEntry "content_length_limit" countOfInt? table
      defaultUser := ← ofEntry "default_user" userOfInt? table
      rebuildBatch := ← ofEntry "rebuild_batch_size" countOfInt? table }

/-- The settings for an environment and the text of a file, if there is one. -/
def Settings.load (env : String → Option String) (file : Option String) :
    Except Fault Settings := do
  let environment ← PartialSettings.ofEnvironment env
  let made ← match file with
    | some text => PartialSettings.ofFile text
    | none => .ok {}
  return (environment.orElse made).complete

end TaggedMemos
