import Std.Time.DateTime.Timestamp
import TaggedMemos.CommandLine.Run
import TaggedMemos.CommandLine.Usage
import TaggedMemos.Time.Clock

/-!
# The Program

The command line as a program. It collects what a run depends on, lets the run happen, and does
what came out of it: prints, and replaces the memo file.
-/

namespace TaggedMemos.CommandLine

/-- The variables of the environment that a run may look at. -/
def variableNames : List String :=
  [dataVariable, "MEMOTAG_USER", "MEMOTAG_CONTENT_LENGTH_LIMIT", "MEMOTAG_LOG", "HOME",
    "XDG_DATA_HOME", "CLICOLOR_FORCE"]

/-- The environment, as far as a run may look at it. -/
def readEnvironment : IO (String → Option String) := do
  let known ← variableNames.filterMapM fun name => do
    return (← IO.getEnv name).map fun value => (name, value)
  return fun name => (known.find? (·.1 == name)).map (·.2)

/-- The text of a file, if it exists, or why it cannot be read. -/
def readText (path : String) : IO (Except String (Option String)) := do
  try return .ok (some (← IO.FS.readFile path))
  catch
    | .noFileOrDirectory .. => return .ok none
    | e => return .error (toString e)

/-- What is piped in, if anything is. -/
def readInput : IO String := do
  let input ← IO.getStdin
  if ← input.isTty then return ""
  input.readToEnd

/-- An identifier that is not in use. -/
def freshId : IO MemoId := do
  let bytes ← IO.getRandomBytes 16
  return .ofRandom (.ofNat 128 (bytes.toList.foldl (fun n b => n * 256 + b.toNat) 0))

/-- The time. -/
def currentTime : IO Timestamp := do
  return .ofClock (← Std.Time.Timestamp.now).toNanosecondsSinceUnixEpoch.val

/-- Replaces the memo file of a directory. The text goes into a file beside it first, so that the
memo file is never half written. -/
def replaceMemos (directory text : String) : IO Unit := do
  IO.FS.createDirAll directory
  let draft := directory ++ "/.memos-" ++ (← freshId).toText ++ ".tmp"
  IO.FS.writeFile draft text
  IO.FS.rename draft (directory ++ "/memos.json")

/-- Carries out an invocation and gives the exit code. -/
def carryOut (inv : Invocation) (env : String → Option String) : IO Nat := do
  let directory := (inv.directory env).toOption
  let fileText := fun (name : String) =>
    match directory with
    | some directory => readText (directory ++ "/" ++ name)
    | none => pure (.ok none)
  -- The clock is read once, for every save of the run.
  let now := Function.const Nat (← currentTime)
  let outcome := run inv {
    env
    settings := ← fileText "memotag.toml"
    memos := ← fileText "memos.json"
    input := ← if inv.command.readsInput then readInput else pure ""
    freshId := ← freshId
    now }
  let outcome ← match directory, outcome.file with
    | some directory, some text =>
      try
        replaceMemos directory text
        pure outcome
      catch e => pure { code := 1, diagnostics := faultText (.io (toString e)) : Outcome }
    | _, _ => pure outcome
  IO.eprint outcome.diagnostics
  IO.print outcome.output
  return outcome.code

end TaggedMemos.CommandLine

open TaggedMemos CommandLine in
/-- Reads a command line and carries out what it asks for. -/
def main (words : List String) : IO UInt32 := do
  let env ← readEnvironment
  match Invocation.read env words with
  | .ok inv => return UInt32.ofNat (← carryOut inv env)
  | .error fault =>
    if fault.code = 0 then IO.print fault.message else IO.eprint fault.message
    return UInt32.ofNat fault.code
