/-!
# Arguments

A command line is read level by level. A level is the program itself or one of its commands; it
has options, arguments by position, and possibly commands below it. The name of a command ends
its level. Options are written `--name` or as a letter after a hyphen, letters may be joined, and
a value follows its option as the next word, after an equals sign, or after the letter at once.

A word with a hyphen in front is never taken for the value of the option before it. After two
hyphens, and after the first of any number of words that a level ends in, every word is an
argument.
-/

namespace TaggedMemos.CommandLine

/-- What an option stands with. -/
inductive OptionKind where
  /-- Nothing, once. -/
  | flag
  /-- Nothing, any number of times. -/
  | count
  /-- A value, once. -/
  | value
  deriving DecidableEq, Repr

/-- An option. -/
structure OptionSpec where
  /-- The name after two hyphens. -/
  name : String
  /-- The letter after one hyphen. -/
  letter : Option Char := none
  /-- What the option stands with. -/
  kind : OptionKind := .flag
  deriving DecidableEq, Repr

/-- What can stand at a level. -/
structure Level where
  /-- The options. -/
  options : List OptionSpec := []
  /-- The number of arguments, all of which are needed. -/
  arguments : Nat := 0
  /-- Whether any number of words may follow the arguments. -/
  endsInWords : Bool := false
  /-- The names of the commands below. -/
  commands : List String := []

/-- Why a command line is not understood, or what it asks for instead of a command. -/
inductive UsageFault where
  /-- An option does not exist. -/
  | unknownOption (word : String)
  /-- An option lacks its value. -/
  | valueMissing (name : String)
  /-- An option that takes no value has one. -/
  | valueUnwanted (name : String)
  /-- An option occurs twice. -/
  | repeated (name : String)
  /-- The value of an option cannot be read. -/
  | badValue (name : String)
  /-- An argument is one too many. -/
  | unexpected (word : String)
  /-- An argument is missing. -/
  | argumentMissing
  /-- A command is missing. -/
  | commandMissing
  /-- Help is asked for. -/
  | help
  /-- The version is asked for. -/
  | version
  deriving DecidableEq, Repr

/-- What was found at a level. -/
structure Found where
  /-- The options by name, with their values. -/
  options : List (String × String) := []
  /-- The arguments. -/
  arguments : List String := []
  /-- The option whose value comes next. -/
  pending : Option OptionSpec := none
  /-- Whether every word that follows is an argument. -/
  onlyArguments : Bool := false
  deriving Repr

namespace Found

/-- One more option. -/
def addOption (found : Found) (spec : OptionSpec) (value : String) : Except UsageFault Found :=
  if spec.name = "help" then .error .help
  else if spec.name = "version" then .error .version
  else if spec.kind ≠ .count ∧ found.options.any (·.1 == spec.name) then
    .error (.repeated spec.name)
  else .ok { found with options := found.options ++ [(spec.name, value)], pending := none }

/-- The value of an option. -/
def value? (found : Found) (name : String) : Option String :=
  (found.options.find? (·.1 == name)).map (·.2)

/-- The number of times that an option occurs. -/
def count (found : Found) (name : String) : Nat :=
  found.options.countP (·.1 == name)

/-- Whether an option occurs. -/
def has (found : Found) (name : String) : Bool :=
  found.options.any (·.1 == name)

end Found

/-! ### Words -/

/-- Whether a word has a hyphen in front and more behind it. -/
def looksLikeOption (word : List Char) : Bool :=
  word.head? == some '-' && word != ['-']

/-- An option given by its name, and the value after an equals sign if there is one. -/
def addNamed (level : Level) (found : Found) (word : List Char) : Except UsageFault Found :=
  let name := String.ofList (word.takeWhile (· != '='))
  match level.options.find? (·.name == name), word.dropWhile (· != '=') with
  | none, _ => .error (.unknownOption (String.ofList ('-' :: '-' :: word)))
  | some spec, [] =>
    if spec.kind = .value then .ok { found with pending := some spec } else found.addOption spec ""
  | some spec, _ :: value =>
    if spec.kind = .value then found.addOption spec (String.ofList value)
    else .error (.valueUnwanted name)

/-- Options given by letters. -/
def addLetters (level : Level) (found : Found) : List Char → Except UsageFault Found
  | [] => .ok found
  | c :: rest =>
    match level.options.find? (·.letter == some c) with
    | none => .error (.unknownOption (String.ofList ['-', c]))
    | some spec =>
      if spec.kind = .value then
        match rest with
        | [] => .ok { found with pending := some spec }
        | '=' :: value => found.addOption spec (String.ofList value)
        | value => found.addOption spec (String.ofList value)
      else do
        let found ← found.addOption spec ""
        addLetters level found rest

/-- One more argument. -/
def addArgument (level : Level) (found : Found) (word : String) : Except UsageFault Found :=
  if found.arguments.length < level.arguments then
    .ok { found with arguments := found.arguments ++ [word] }
  else if level.endsInWords then
    .ok { found with arguments := found.arguments ++ [word], onlyArguments := true }
  else .error (.unexpected word)

/-- One more word that is not the name of a command. -/
def addWord (level : Level) (found : Found) (word : String) : Except UsageFault Found :=
  match found.pending, found.onlyArguments, word.toList with
  | some spec, _, cs =>
    if looksLikeOption cs then .error (.valueMissing spec.name) else found.addOption spec word
  | none, true, _ => addArgument level found word
  | none, false, ['-', '-'] => .ok { found with onlyArguments := true }
  | none, false, '-' :: '-' :: name => addNamed level found name
  | none, false, '-' :: c :: letters => addLetters level found (c :: letters)
  | none, false, _ => addArgument level found word

/-- What is found at a level, and the command that ends it with the words after the command. -/
def readLevel (level : Level) (found : Found) :
    List String → Except UsageFault (Found × Option (String × List String))
  | [] =>
    match found.pending with
    | some spec => .error (.valueMissing spec.name)
    | none => .ok (found, none)
  | word :: rest =>
    if found.pending.isNone && !found.onlyArguments && level.commands.contains word then
      .ok (found, some (word, rest))
    else do
      let found ← addWord level found word
      readLevel level found rest

/-- What is found at a level without commands, all its arguments included. -/
def readLast (level : Level) (words : List String) : Except UsageFault Found := do
  let (found, _) ← readLevel level {} words
  if found.arguments.length < level.arguments then throw .argumentMissing
  return found

end TaggedMemos.CommandLine
