import TaggedMemos.CommandLine.Arguments
import TaggedMemos.Memo.File
import TaggedMemos.Text.Numeral

/-!
# Invocations

What a command line asks the program to do. Four options can stand at every level: the data
directory, the caller, how much to log, and whether to answer in JSON. Of several levels that
give one of them, the innermost counts. The data directory can also come from the environment.
-/

namespace TaggedMemos.CommandLine

open Text

/-- What to do. -/
inductive Command where
  /-- Create a memo from words. -/
  | add (parent : Option String) (words : List String)
  /-- Replace the text of a memo by words. -/
  | edit (memo : String) (words : List String)
  /-- Show a memo. -/
  | view (memo : String)
  /-- List memos. -/
  | memos (tag : Option String)
  /-- Delete a memo. -/
  | remove (memo : String)
  /-- List tags. -/
  | tags (start : Option String) (ids flat : Bool)
  /-- Show a tag. -/
  | tag (path : String) (ids : Bool)
  /-- Rename a tag everywhere. -/
  | rename (old new : String) (moveChildren : Bool)
  /-- Delete a tag everywhere. -/
  | delete (path strategy : String)
  /-- Delete the memos with a tag. -/
  | batchDelete (path : String) (children dryRun : Bool)
  /-- Rename a tag of one memo. -/
  | renameIn (memo old new : String)
  /-- Delete a tag of one memo. -/
  | deleteIn (memo tag : String)
  /-- Compute all payloads again. -/
  | rebuild
  deriving DecidableEq, Repr

/-- What a command line asks for. -/
structure Invocation where
  /-- What to do. -/
  command : Command
  /-- The data directory. -/
  data : Option String
  /-- The caller. -/
  user : Option UserId
  /-- How much to log. -/
  verbosity : Nat
  /-- Whether to answer in JSON. -/
  json : Bool
  deriving DecidableEq, Repr

/-! ### Levels -/

/-- The options of every level. -/
def everywhere : List OptionSpec :=
  [⟨"data", none, .value⟩, ⟨"user", some 'u', .value⟩, ⟨"verbose", some 'v', .count⟩,
    ⟨"json", none, .flag⟩, ⟨"help", some 'h', .flag⟩]

/-- A level with the options of every level and its own. -/
def levelWith (options : List OptionSpec) (arguments : Nat) : Level :=
  { options := everywhere ++ options, arguments }

/-- A command: its names and its level, and how it follows from what is found there. -/
structure CommandSpec where
  /-- The names. -/
  names : List String
  /-- The level. -/
  level : Level
  /-- The command. -/
  command : Found → Option Command

/-- The commands that edit one memo. -/
def memoTagCommands : List CommandSpec := [
  ⟨["rename"], levelWith [] 3, fun found =>
    match found.arguments with
    | [memo, old, new] => some (.renameIn memo old new)
    | _ => none⟩,
  ⟨["delete"], levelWith [] 2, fun found =>
    match found.arguments with
    | [memo, tag] => some (.deleteIn memo tag)
    | _ => none⟩]

/-- The commands on memos. -/
def memoCommands : List CommandSpec := [
  ⟨["add", "a"], { levelWith [⟨"parent", none, .value⟩] 0 with endsInWords := true },
    fun found => some (.add (found.value? "parent") found.arguments)⟩,
  ⟨["edit", "e"], { levelWith [] 1 with endsInWords := true }, fun found =>
    match found.arguments with
    | memo :: words => some (.edit memo words)
    | [] => none⟩,
  ⟨["show", "v"], levelWith [] 1, fun found => found.arguments.head?.map .view⟩,
  ⟨["memos", "ls"], levelWith [⟨"tag", some 't', .value⟩] 0, fun found =>
    some (.memos (found.value? "tag"))⟩,
  ⟨["remove", "rm"], levelWith [] 1, fun found => found.arguments.head?.map .remove⟩]

/-- The commands on tags. -/
def tagCommands : List CommandSpec := [
  ⟨["tags"], levelWith [⟨"prefix", some 'p', .value⟩, ⟨"ids", none, .flag⟩, ⟨"flat", none, .flag⟩] 0,
    fun found => some (.tags (found.value? "prefix") (found.has "ids") (found.has "flat"))⟩,
  ⟨["tag"], levelWith [⟨"ids", none, .flag⟩] 1, fun found =>
    found.arguments.head?.map fun path => .tag path (found.has "ids")⟩,
  ⟨["rename", "mv"], levelWith [⟨"move-children", none, .flag⟩] 2, fun found =>
    match found.arguments with
    | [old, new] => some (.rename old new (found.has "move-children"))
    | _ => none⟩,
  ⟨["delete"], levelWith [⟨"strategy", some 's', .value⟩] 1, fun found =>
    found.arguments.head?.map fun path =>
      .delete path ((found.value? "strategy").getD "remove-from-content")⟩,
  ⟨["batch-delete"], levelWith [⟨"children", none, .flag⟩, ⟨"dry-run", none, .flag⟩] 1,
    fun found => found.arguments.head?.map fun path =>
      .batchDelete path (found.has "children") (found.has "dry-run")⟩,
  ⟨["rebuild"], levelWith [] 0, fun _ => some .rebuild⟩]

/-- The commands with no commands below them. -/
def commands : List CommandSpec :=
  memoCommands ++ tagCommands

/-- The command that has commands below it. -/
def memoTagName : String := "memo-tag"

/-- The level of the program. -/
def programLevel : Level where
  options := everywhere ++ [⟨"version", some 'V', .flag⟩]
  commands := memoTagName :: commands.flatMap (·.names)

/-- The level of the command that has commands below it. -/
def memoTagLevel : Level where
  options := everywhere
  commands := memoTagCommands.flatMap (·.names)

/-! ### Reading -/

/-- The command of a name, with what is found at its level. -/
def readCommand (specs : List CommandSpec) (name : String) (words : List String) :
    Except UsageFault (Command × Found) := do
  match specs.find? (·.names.contains name) with
  | none => throw .commandMissing
  | some spec =>
    let found ← readLast spec.level words
    match spec.command found with
    | some command => return (command, found)
    | none => throw .argumentMissing

/-- The command of a command line, with what is found at its levels, the innermost first. Without
a command the tags are listed. -/
def readWords (words : List String) : Except UsageFault (Command × List Found) := do
  match ← readLevel programLevel {} words with
  | (outer, none) => return (.tags none false false, [outer])
  | (outer, some (name, words)) =>
    if name = memoTagName then
      match ← readLevel memoTagLevel {} words with
      | (_, none) => throw .commandMissing
      | (middle, some (name, words)) =>
        let (command, inner) ← readCommand memoTagCommands name words
        return (command, [inner, middle, outer])
    else
      let (command, inner) ← readCommand commands name words
      return (command, [inner, outer])

/-- The number of a user. -/
def user? (text : String) : Option UserId :=
  (signedDecimal? text.toList).filter isUserId

/-- The variable that names the data directory. -/
def dataVariable : String := "MEMOTAG_DATA"

/-- What a command line asks for in an environment. Where a level does not give the data directory
the variable has to be in order. -/
def Invocation.read (env : String → Option String) (words : List String) :
    Except UsageFault Invocation := do
  let (command, levels) ← readWords words
  for found in levels do
    if (found.value? "data").getD "." = "" then throw (.badValue "data")
    if found.has "user" && ((found.value? "user").bind user?).isNone then throw (.badValue "user")
    if !found.has "data" && env dataVariable == some "" then throw (.badValue "data")
  return {
    command
    data := (levels.findSome? (·.value? "data")).orElse fun _ => env dataVariable
    user := (levels.findSome? (·.value? "user")).bind user?
    verbosity := ((levels.map (·.count "verbose")).find? (· ≠ 0)).getD 0
    json := levels.any (·.has "json") }

end TaggedMemos.CommandLine
