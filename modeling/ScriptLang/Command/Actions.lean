import ScriptLang.Eval.Run
import ScriptLang.Json.Writer
import ScriptLang.Tree.Dump

/-!
# What commands do

What a command of the program is given, what it leaves, and what it does.

* `CommandInput` is the process with its directory tree, `CommandResult` the texts that were
  written, the status, and the tree as it is afterwards.
* `CommandResult.report` writes an error, coloured if that is wanted.
* `CommandInput.source` reads a source file and words what may go wrong.
* `Command.runFile` and `Command.runText` run a program. A program that is left stops at once, with
  the code as status.
* `Command.listTokens` and `Command.showTree` show how a file is read.
-/

namespace ScriptLang

/-- What a command is given besides its arguments. -/
structure CommandInput where
  workspace : Workspace
  /-- Whether errors are written to a terminal. -/
  terminal : Bool := false
  /-- The start of the random numbers. -/
  random : Nat := 1
  now : Instant := ⟨0⟩
  deriving Inhabited

/-- What a command leaves. -/
structure CommandResult where
  output : String
  errors : String
  status : Nat
  workspace : Workspace
  deriving Inhabited

namespace CommandResult

/-- Writes a text and succeeds. -/
def success (input : CommandInput) (output : String) : CommandResult :=
  ⟨output, "", 0, input.workspace⟩

/-- Writes a line of error and fails. -/
def failure (input : CommandInput) (message : String) : CommandResult :=
  ⟨"", message ++ "\n", 1, input.workspace⟩

/-- Writes the block of an error and fails. -/
def report (input : CommandInput) (color : ColorMode) (d : Diagnostic) : CommandResult :=
  ⟨"", d.emit color input.terminal, 1, input.workspace⟩

end CommandResult

namespace CommandInput

/-- Why a source file cannot be read. -/
def unreadable (path : String) : SystemFault → String
  | .missing => s!"error: cannot find file '{path}'"
  | fault => s!"error: error reading '{path}': {fault.message}"

/-- The text of a source file, or what is said if there is none. -/
def source (input : CommandInput) (path : String) : Except String String :=
  (input.workspace.read path).mapError (unreadable path)

/-- The colours of errors if the command line does not choose them. -/
def defaultColor (input : CommandInput) : ColorMode :=
  match input.workspace.environment.find? (·.1 == "NO_COLOR") with
  | some (_, value) => if value.isEmpty then .auto else .never
  | none => .auto

end CommandInput

end ScriptLang

/-! ### Actions -/

namespace ScriptLang

/-- A token as one line of JSON. -/
def Token.jsonLine (t : Token) : String :=
  "\x7b\"kind\":" ++ JsonWriter.quote t.kind.listingName
    ++ ",\"value\":" ++ JsonWriter.quote t.value
    ++ ",\"span\":\x7b\"start\":" ++ toString t.span.start ++ ",\"end\":" ++ toString t.span.stop
    ++ "\x7d,\"line\":" ++ toString t.line ++ ",\"column\":" ++ toString t.column ++ "\x7d\n"

/-- A path from the root that leads where the path leads from the working directory. Only `..` and a
slash at the end are kept. -/
def Workspace.absolute (w : Workspace) (path : String) : String :=
  let kept := (Workspace.names path).filter (· != ".")
  let lead :=
    if Path.isAbsolute path then
      if path.startsWith "//" && !path.startsWith "///" then "//" else "/"
    else if w.cwd.endsWith "/" then w.cwd
    else w.cwd ++ "/"
  let whole :=
    if kept.isEmpty && !Path.isAbsolute path then w.cwd
    else lead ++ String.intercalate "/" kept
  if Workspace.endsInSlash path && !whole.endsWith "/" then whole ++ "/" else whole

namespace Command

/-- Runs a text as a file. -/
def execute (input : CommandInput) (color : ColorMode) (arguments : List String)
    (text file : String) : CommandResult :=
  let start := Machine.initial {
    host := .process { input.workspace with arguments := arguments }
    random := input.random
    now := input.now }
  let (ending, m) := start.runSource text file
  let workspace := match m.host with
    | .process w => w
    | _ => input.workspace
  let (message, status) := match ending with
    | .value _ => ("", 0)
    | .left code => ("", Workspace.exitStatus code)
    | .error d => (d.emit color input.terminal, 1)
  ⟨m.printer.output, m.printer.errors ++ message, status, workspace⟩

/-- Runs a file. Its path is made absolute, so that its imports are found next to it. -/
def runFile (input : CommandInput) (color : ColorMode) (path : String) (arguments : List String) :
    CommandResult :=
  match input.source path with
  | .error message => .failure input message
  | .ok text => execute input color arguments text (input.workspace.absolute path)

/-- The file name of a program that is given as text. -/
def snippetName : String := "<eval>"

/-- Runs a text. -/
def runText (input : CommandInput) (color : ColorMode) (text : String) : CommandResult :=
  execute input color [] text snippetName

/-- Lists the tokens of a file, one on a line. -/
def listTokens (input : CommandInput) (color : ColorMode) (path : String) : CommandResult :=
  match input.source path with
  | .error message => .failure input message
  | .ok text =>
    match Lexer.tokenize text path with
    | .error d => .report input color (d.withSource text)
    | .ok tokens => .success input (String.join (tokens.map Token.jsonLine))

/-- Shows the syntax tree of a file. -/
def showTree (input : CommandInput) (color : ColorMode) (path : String) : CommandResult :=
  match input.source path with
  | .error message => .failure input message
  | .ok text =>
    match Program.ofSource text path with
    | .error d => .report input color d
    | .ok p => .success input (p.dump ++ "\n")

end Command

end ScriptLang
