/-!
# Invocations

What the arguments of the program ask for.

The first argument names the command. Of the others, `-o` and `--output` take
the argument behind them as the output path, whatever it looks like, and all the
rest are files. Mistakes are found in a fixed order: an output option without a
path while the arguments are gone through, then the lack of files, then an
output path for several files, and an unknown command last.

## Main definitions

* `Command`: What to do with the files.
* `Invocation`: A command, its files and the output path.
* `UsageError`: Why arguments ask for nothing.
* `Arguments.sort`: The arguments behind the command, sorted.
* `Invocation.parse`: What the arguments ask for.
-/

namespace SourceTexture

/-- What to do with the files. -/
inductive Command where
  /-- Write a picture of each. -/
  | render
  /-- Print the fragments of each. -/
  | dump
  deriving DecidableEq

/-- What the program was asked to do. -/
structure Invocation where
  /-- What to do. -/
  command : Command
  /-- The files to do it with, in order. -/
  files : List String
  /-- Where the picture goes, if not next to its source. -/
  output : Option String
  deriving DecidableEq

/-- Why arguments ask for nothing. -/
inductive UsageError where
  /-- There are no arguments, or the first one asks for help. -/
  | help
  /-- An output option is the last argument. -/
  | missingPath (option : String)
  /-- There is no file. -/
  | noFiles
  /-- There is an output path and more than one file. -/
  | severalFiles
  /-- There is no such command. -/
  | unknownCommand (name : String)
  deriving DecidableEq

/-- The lines that explain the program. -/
def usage : List String :=
  ["Usage: javaxray <command> [options] [files...]",
    "",
    "Commands:",
    "  render  Write a PNG x-ray for each Java file",
    "  dump    Print the classified fragments of each file",
    "",
    "Options:",
    "  -o, --output <path>  Output image (single input only,",
    "                       default: <input>.png)",
    "",
    "Examples:",
    "  javaxray render Main.java",
    "  javaxray render Main.java -o main.png",
    "  javaxray dump Main.java",
    "",
    "Set RUST_LOG=debug for pipeline details."]

/-- The lines that explain a mistake. -/
def UsageError.lines : UsageError → List String
  | help => usage
  | missingPath option => ["Error: " ++ option ++ " needs a path"]
  | noFiles => ["Error: no files specified"]
  | severalFiles => ["Error: --output needs exactly one input file"]
  | unknownCommand name => ["Unknown command: " ++ name]

/-- The arguments behind the command, sorted. -/
structure Arguments where
  /-- The files, in order. -/
  files : List String := []
  /-- The last output path given. -/
  output : Option String := none
  deriving DecidableEq

/-- Sorts the arguments behind the command. An output path is the argument behind
    the option even if it looks like an option itself, and of several the last
    one counts. -/
def Arguments.sort (found : Arguments) : List String → Except UsageError Arguments
  | [] => .ok found
  | [arg] =>
    if arg = "-o" ∨ arg = "--output" then .error (.missingPath arg)
    else .ok { found with files := found.files ++ [arg] }
  | arg :: next :: rest =>
    if arg = "-o" ∨ arg = "--output" then sort { found with output := some next } rest
    else sort { found with files := found.files ++ [arg] } (next :: rest)

/-- The command of a name. -/
def Command.ofName? (name : String) : Option Command :=
  if name = "render" then some .render else if name = "dump" then some .dump else none

/-- What the arguments ask for. -/
def Invocation.parse : List String → Except UsageError Invocation
  | [] => .error .help
  | name :: rest =>
    if name = "--help" ∨ name = "-h" then .error .help
    else do
      let found ← Arguments.sort {} rest
      -- The command is looked at last, so its mistakes are the last to show.
      if found.files = [] then .error .noFiles
      else if found.output.isSome ∧ 1 < found.files.length then .error .severalFiles
      else
        match Command.ofName? name with
        | some command => .ok ⟨command, found.files, found.output⟩
        | none => .error (.unknownCommand name)

end SourceTexture
