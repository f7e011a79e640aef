import ScriptLang.Command.Actions

/-!
# The command line

`CommandLine.run` chooses a command by its arguments. The first argument of the form `--color=...`
is taken out, wherever it stands; what then comes first is a command or the path of a program.
-/

namespace ScriptLang.CommandLine

/-- The version of the program. -/
def version : String := "0.1.0-alpha.1"

/-- How the program is used. -/
def usage : String :=
  "\n".intercalate
    ["Mimo interpreter",
      "",
      "Usage: mimo [--color=auto|always|never] <command> [options]",
      "",
      "Commands:",
      "  run <file.mimo> [args...]  Run a Mimo program",
      "  eval \"<source>\"            Run a source snippet",
      "  tokens <file.mimo>         Print the token stream as JSON lines",
      "  ast <file.mimo>            Print the syntax tree",
      "  help                       Show this help message",
      "  --version                  Show the version",
      "",
      "Environment:",
      "  RUST_LOG         Enable interpreter logging (e.g. RUST_LOG=mimo_eval=debug)",
      "  MIMO_TRACE_TREE  Render logs as a call tree",
      "  NO_COLOR         Disable coloured error output",
      ""]

/-- What a choice of colours begins with. -/
def colorFlag : List Char := "--color=".toList

/-- A text without a beginning, taken off as often as it is there; `n` bounds how often. -/
def dropLead (lead : List Char) : Nat → List Char → List Char
  | 0, cs => cs
  | n + 1, cs => if lead.isPrefixOf cs then dropLead lead n (cs.drop lead.length) else cs

/-- Whether an argument chooses colours. -/
def isColorFlag (arg : String) : Bool := colorFlag.isPrefixOf arg.toList

/-- What an argument that chooses colours chooses. -/
def colorChoice (arg : String) : String :=
  String.ofList (dropLead colorFlag arg.length arg.toList)

/-- The ending that names of programs have. -/
def programEnding : String := "mimo"

/-- Whether a path is that of a program: its last segment goes on behind a first character with a
point and the ending of programs, in any case. -/
def isProgramPath (path : String) : Bool :=
  match ((Workspace.names path).filter (· != ".")).getLast? with
  | none => false
  | some last =>
    let behind := last.toList.reverse.takeWhile (· != '.')
    last != ".." && behind.length + 1 < last.length
      && (String.ofList behind.reverse).toLower == programEnding

/-- Runs a command with the colours that its errors have. -/
def runCommand (input : CommandInput) (color : ColorMode) (args : List String) : CommandResult :=
  match args with
  | [] => .success input usage
  | "run" :: path :: rest => Command.runFile input color path rest
  | ["run"] => .failure input "Usage: mimo run <file.mimo> [args...]"
  | "eval" :: text :: _ => Command.runText input color text
  | ["eval"] => .failure input "Usage: mimo eval \"<source>\""
  | "tokens" :: path :: _ => Command.listTokens input color path
  | ["tokens"] => .failure input "Usage: mimo tokens <file.mimo>"
  | "ast" :: path :: _ => Command.showTree input color path
  | ["ast"] => .failure input "Usage: mimo ast <file.mimo>"
  | command :: rest =>
    if ["help", "--help", "-h"].contains command then .success input usage
    else if ["version", "--version", "-V"].contains command then
      .success input s!"mimo {version}\n"
    else if isProgramPath command then Command.runFile input color command rest
    else { CommandResult.failure input s!"Unknown command: {command}\n" with output := usage }

/-- Runs the program with arguments. -/
def run (input : CommandInput) (args : List String) : CommandResult :=
  match args.find? isColorFlag with
  | none => runCommand input input.defaultColor args
  | some flag =>
    let choice := colorChoice flag
    match ColorMode.ofName? choice with
    | some color => runCommand input color (args.eraseP isColorFlag)
    | none =>
      .failure input
        s!"error: invalid --color value '{choice}' (expected auto, always or never)"

end ScriptLang.CommandLine
