import TaggedMemos.CommandLine.Invocation
import TaggedMemos.CommandLine.LogFilter
import TaggedMemos.CommandLine.Records
import TaggedMemos.CommandLine.Rendering
import TaggedMemos.Service.Configuration

/-!
# Running a Command

A run takes what a command line asks for, what the environment and the data directory hold, and
what is piped in. It gives what is printed, the exit code, and the memo file to be written, if
any. Nothing is read or written here, so a run is a value like any other.

A run makes at most one new memo, so one new identifier is enough for it.
-/

namespace TaggedMemos.CommandLine

open Text

/-- What a run depends on besides the invocation. -/
structure Surroundings where
  /-- The name that the program goes by in the log. -/
  program : String := "memotag"
  /-- The variables of the environment. -/
  env : String → Option String
  /-- The text of the configuration file, if there is one, or why it cannot be read. -/
  settings : Except String (Option String) := .ok none
  /-- The text of the memo file, if there is one, or why it cannot be read. -/
  memos : Except String (Option String) := .ok none
  /-- What is piped in. -/
  input : String := ""
  /-- The identifier of a new memo. -/
  freshId : MemoId
  /-- The time, given how many saves were tried before. -/
  now : Nat → Timestamp

/-- What comes out of a run. -/
structure Outcome where
  /-- The exit code. -/
  code : Nat
  /-- What is printed. -/
  output : String := ""
  /-- What is printed as diagnostics. -/
  diagnostics : String := ""
  /-- The new text of the memo file, if it changes. -/
  file : Option String := none
  deriving DecidableEq, Repr

/-! ### Places -/

/-- The data directory where none is given: the place for data of the user, and in it a directory
of the program's own. -/
def defaultDirectory (env : String → Option String) : Except Fault String :=
  match (env "XDG_DATA_HOME").filter fun path => path.toList.head? == some '/', env "HOME" with
  | some place, _ => .ok (place ++ "/memotag")
  | none, some home =>
    if home.isEmpty then .error (.config "could not determine data directory")
    else .ok (home ++ "/.local/share/memotag")
  | none, none => .error (.config "could not determine data directory")

/-- The data directory of a run. -/
def Invocation.directory (inv : Invocation) (env : String → Option String) :
    Except Fault String :=
  match inv.data with
  | some path => .ok path
  | none => defaultDirectory env

/-! ### Requests -/

/-- A memo given by name or by its identifier alone. -/
def memoName (text : String) : String :=
  if MemoName.start.toList.isPrefixOf text.toList then text else MemoName.start ++ text

/-- A text without the line feeds at its end. -/
def withoutLastNewlines (cs : List Char) : List Char :=
  (cs.reverse.dropWhile (· == '\n')).reverse

/-- The text of a memo: the words given, or what is piped in where there are none. -/
def contentOf (input : String) (words : List String) : Except Fault String :=
  if words.isEmpty then
    if isBlankText input.toList then .error (.invalidArgument .contentMissing)
    else .ok (String.ofList (withoutLastNewlines input.toList))
  else .ok (spaced words)

/-- The request that a command makes. -/
def Command.request (input : String) : Command → Except Fault Request
  | .add parent words => do
    return .createMemo (← contentOf input words) (parent.map memoName)
  | .edit memo words => do
    return .updateMemo (memoName memo) (← contentOf input words)
  | .view memo => .ok (.getMemo (memoName memo))
  | .memos path => .ok (.listMemos path)
  | .remove memo => .ok (.deleteMemo (memoName memo))
  | .tags start ids flat => .ok (.listTags ⟨start, ids, !flat⟩)
  | .tag path ids => .ok (.getTag path ids)
  | .rename old new moveChildren => .ok (.renameTag old new moveChildren)
  | .delete path strategy => do
    return .deleteTag path (← DeleteStrategy.ofText strategy)
  | .batchDelete path children dryRun => .ok (.batchDelete path children dryRun)
  | .renameIn memo old new => .ok (.renameMemoTag (memoName memo) old new)
  | .deleteIn memo path => .ok (.deleteMemoTag (memoName memo) path)
  | .rebuild => .ok .rebuildPayloads

/-- Whether a command takes a text that is piped in. -/
def Command.readsInput : Command → Bool
  | .add _ [] | .edit _ [] => true
  | _ => false

/-- Whether a command asks for a list of tags without their tree. -/
def Command.isFlat : Command → Bool
  | .tags _ _ flat => flat
  | _ => false

/-! ### The run -/

/-- What the memo file holds. -/
def storedMemos (found : Except String (Option String)) : Except Fault Collection :=
  match found with
  | .error reason => .error (.io reason)
  | .ok none => .ok []
  | .ok (some text) =>
    match Collection.ofFile? text with
    | some memos => .ok memos
    | none => .error (.serialization "the file does not hold memos")

/-- The settings of a run. -/
def loadSettings (s : Surroundings) : Except Fault Settings :=
  match s.settings with
  | .error reason => .error (.config reason)
  | .ok file => Settings.load s.env file

/-- The filter of the log of a run. -/
def loadFilter (inv : Invocation) (env : String → Option String) : Except Fault LogFilter :=
  match LogFilter.ofText? (LogFilter.chosen inv.verbosity (env "MEMOTAG_LOG")) with
  | some filter => .ok filter
  | none => .error (.config "invalid log level")

/-- The record that a run begins with. -/
def startRecord (program directory : String) (user : UserId) : LogRecord where
  level := .debug
  origin := program ++ "::cli::commands"
  message :=
    "event=cli_init module=cli status=ok data_dir=" ++ directory ++ " user=" ++ toString user

/-- The records that are shown, one in a line. -/
def logText (filter : LogFilter) (records : List LogRecord) : String :=
  String.join ((records.filter filter.shows).map fun r => r.line ++ "\n")

/-- How a fault is printed. -/
def faultText (fault : Fault) : String :=
  "Error: " ++ fault.message ++ "\n"

/-- What an invocation does, once everything is known that it depends on. -/
def perform (inv : Invocation) (s : Surroundings) (settings : Settings) (user : UserId) :
    Except Fault Answer × Progress :=
  let begin : Progress := { stored := storedMemos s.memos }
  match inv.command.request s.input with
  | .error fault => (.error fault, begin)
  | .ok request =>
    request.perform.outcome { user, settings, freshId := s.freshId, now := s.now } begin

/-- How an answer is printed. -/
def answerOutput (inv : Invocation) (env : String → Option String) (answer : Answer) : String :=
  if inv.json then answer.toJson.toText ++ "\n"
  else answerText { colored := wantsColors env, flat := inv.command.isFlat } answer

/-- What comes out of an invocation. -/
def run (inv : Invocation) (s : Surroundings) : Outcome :=
  let ready : Except Fault (LogFilter × String × Settings) := do
    let filter ← loadFilter inv s.env
    let directory ← inv.directory s.env
    return (filter, directory, ← loadSettings s)
  match ready with
  | .error fault => { code := 1, diagnostics := faultText fault }
  | .ok (filter, directory, settings) =>
    let user := inv.user.getD settings.defaultUser
    let (result, progress) := perform inv s settings user
    let log := logText filter
      (startRecord s.program directory user :: progress.log.reverse.map Occurrence.record)
    let file := progress.saved.head?.map Collection.toFile
    match result with
    | .ok answer => { code := 0, output := answerOutput inv s.env answer, diagnostics := log, file }
    | .error fault => { code := 1, diagnostics := log ++ faultText fault, file }

end TaggedMemos.CommandLine
