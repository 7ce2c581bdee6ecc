import TaggedMemos.CommandLine.Arguments

/-!
# Usage

What is printed in place of an answer when a command line is not understood, or asks how to
write one.
-/

namespace TaggedMemos.CommandLine

/-- The name of the program. -/
def programName : String := "memotag"

/-- The version of the program. -/
def programVersion : String := "0.1.0"

/-- How a command line is written. -/
def usageText : String :=
  "\n".intercalate [
    "Hierarchical tags for markdown memos",
    "",
    "Usage: memotag [OPTIONS] [COMMAND]",
    "",
    "Commands:",
    "  add [--parent MEMO] [WORDS]          Create a memo",
    "  edit MEMO [WORDS]                    Replace the text of a memo",
    "  show MEMO                            Show a memo",
    "  memos [-t TAG]                       List memos",
    "  remove MEMO                          Delete a memo and its comments",
    "  tags [-p PREFIX] [--ids] [--flat]    List tags",
    "  tag PATH [--ids]                     Show a tag",
    "  rename OLD NEW [--move-children]     Rename a tag in every memo",
    "  delete PATH [-s STRATEGY]            Delete a tag, or the memos that carry it",
    "  batch-delete PATH [--children] [--dry-run]",
    "                                       Delete the memos that carry a tag",
    "  memo-tag rename MEMO OLD NEW         Rename a tag of one memo",
    "  memo-tag delete MEMO TAG             Delete a tag of one memo",
    "  rebuild                              Compute the tags of all memos again",
    "",
    "Options:",
    "  --data DIRECTORY, -u USER, -v, --json, -h, -V",
    "",
    "Memos are addressed as memos/<uuid> or by bare uuid.",
    "Without a command the tags are listed.",
    ""]

/-- The exit code for a command line that asks for no command. -/
def UsageFault.code : UsageFault → Nat
  | help | version => 0
  | _ => 2

/-- What is printed for a command line that asks for no command. -/
def UsageFault.message : UsageFault → String
  | help => usageText
  | version => programName ++ " " ++ programVersion ++ "\n"
  | unknownOption word => "error: unexpected argument '" ++ word ++ "' found\n"
  | valueMissing name => "error: a value is required for '--" ++ name ++ "'\n"
  | valueUnwanted name => "error: no value is allowed for '--" ++ name ++ "'\n"
  | repeated name => "error: the argument '--" ++ name ++ "' cannot be used multiple times\n"
  | badValue name => "error: invalid value for '--" ++ name ++ "'\n"
  | unexpected word => "error: unexpected argument '" ++ word ++ "' found\n"
  | argumentMissing => "error: a required argument is missing\n"
  | commandMissing => "error: a command is required\n"

end TaggedMemos.CommandLine
