import ScriptLang.Diagnostic.Ghost
import ScriptLang.Source.Lines
import ScriptLang.Text.Blank

/-!
# Diagnostics

A `Diagnostic` is a located error with a code, a message, optional advice, an optional quotation of
the source line and the calls that were active when it was raised.

* `Diagnostic.withSource` quotes the line that the location names.
* `Diagnostic.render` is the block of text that readers see.
* `Diagnostic.lines` is what a terminal is sent, as pieces that may be coloured, and
  `Diagnostic.emit` the text of it.
* The caret under the quotation stands below the column of the location, less the blanks that the
  quotation lost on its left (`Diagnostic.caretOffset`).
-/

namespace ScriptLang

/-- The phase that raised an error. -/
inductive Category where
  /-- Cutting the text into tokens. -/
  | lexical
  /-- Reading the tokens as a program. -/
  | grammatical
  /-- Running the program. -/
  | runtime
  deriving DecidableEq, Repr, Inhabited

/-- The name of an error's kind, as it is shown. -/
def Category.name : Category → String
  | .lexical => "LexerError"
  | .grammatical => "SyntaxError"
  | .runtime => "RuntimeError"

/-- One active call: the function and the place that called it. -/
structure CallFrame where
  /-- Name of the function. -/
  function : String
  /-- The place of the call. -/
  location : Location
  deriving DecidableEq, Repr, Inhabited

/-- A located error. -/
structure Diagnostic where
  /-- The phase that raised it. -/
  category : Category
  /-- Its code. -/
  code : String
  /-- What went wrong. -/
  message : String
  /-- Where. -/
  location : Location
  /-- What to do about it. -/
  suggestion : Option String := none
  /-- The source line that the location points into. -/
  snippet : Option String := none
  /-- The active calls, the latest first. -/
  stack : List CallFrame := []
  /-- The calls that were active when it was raised, the latest first. The stack is a record of them
  that is made later, if at all. -/
  origin : Ghost (List CallFrame) := .of []
  deriving Repr, Inhabited

/-- When a text for a terminal is coloured. -/
inductive ColorMode where
  /-- If it goes to a terminal. -/
  | auto
  | always
  | never
  deriving DecidableEq, Repr, Inhabited

namespace ColorMode

/-- The mode of a name. -/
def ofName? : String → Option ColorMode
  | "auto" => some .auto
  | "always" => some .always
  | "never" => some .never
  | _ => none

/-- Whether to colour, given whether the text goes to a terminal. -/
def enabled (mode : ColorMode) (terminal : Bool) : Bool :=
  match mode with
  | .auto => terminal
  | .always => true
  | .never => false

end ColorMode

/-- The parts of an error block that a terminal tells apart by colour. -/
inductive Paint where
  /-- Not coloured. -/
  | plain
  /-- The headline and the caret. -/
  | error
  /-- The word before the advice. -/
  | help
  /-- The headline of the call list. -/
  | strong
  /-- The location. -/
  | place
  deriving DecidableEq, Repr

/-- The control sequence that starts a colour. -/
def Paint.sequence : Paint → String
  | .plain => ""
  | .error => "\x1b[1;31m"
  | .help => "\x1b[1;32m"
  | .strong => "\x1b[1m"
  | .place => "\x1b[1;34m"

/-- The control sequence that ends a colour. -/
def Paint.reset : String := "\x1b[0m"

/-- A piece of text with or without its colour. -/
def Paint.apply (colors : Bool) (p : Paint) (text : String) : String :=
  if colors && p ≠ .plain then p.sequence ++ text ++ Paint.reset else text

/-- Lines of pieces with or without their colours, each ended by a line feed. -/
def Paint.block (colors : Bool) (lines : List (List (Paint × String))) : String :=
  String.join (lines.map fun l => String.join (l.map fun s => s.1.apply colors s.2) ++ "\n")

namespace Diagnostic

/-- The headline: kind, code and message. -/
def headline (d : Diagnostic) : String := s!"[{d.category.name} {d.code}]: {d.message}"

/-- Attaches advice; an empty text is none. -/
def withSuggestion (d : Diagnostic) (text : String) : Diagnostic :=
  { d with suggestion := if text.isEmpty then none else some text }

/-- Quotes from `source` the line that the location names. -/
def withSource (d : Diagnostic) (source : String) : Diagnostic :=
  { d with snippet := Lines.line? source d.location.line }

/-- Quotes from `source` unless there is a quotation already. -/
def ensureSource (d : Diagnostic) (source : String) : Diagnostic :=
  if d.snippet.isSome then d else d.withSource source

/-- Records the active calls, the latest first. -/
def withStack (d : Diagnostic) (stack : List CallFrame) : Diagnostic := { d with stack := stack }

/-- Marks the error as raised while these calls are active, the latest first. -/
def raisedIn (d : Diagnostic) (frames : List CallFrame) : Diagnostic :=
  { d with origin := .of frames }

/-- Whether the error was raised by a running program. -/
def isRuntime (d : Diagnostic) : Bool := d.category == .runtime

/-- How far the caret stands from the left end of the trimmed quotation. -/
def caretOffset (d : Diagnostic) (line : String) : Nat :=
  d.location.column - 1 - Blank.leading line

/-- So many blanks. -/
def blanks (n : Nat) : String := String.ofList (List.replicate n ' ')

/-! ### The error block -/

/-- The quotation, and the caret below it unless it is blank. -/
def quotation (d : Diagnostic) : String :=
  match d.snippet with
  | none => ""
  | some line =>
    let trimmed := Blank.trim line
    s!"> {trimmed}\n" ++
      if trimmed.isEmpty then "" else s!"  {blanks (d.caretOffset line)}^\n"

/-- The advice. -/
def advice (d : Diagnostic) : String :=
  match d.suggestion with
  | none => ""
  | some text => s!"Suggestion: {text}\n"

/-- The active calls. -/
def callList (d : Diagnostic) : String :=
  if d.stack.isEmpty then "" else
    "Mimo Stack:\n" ++ String.join (d.stack.map fun f =>
      s!"    at {f.function} ({f.location.display})\n")

/-- The error block, each line ended by a line feed. -/
def render (d : Diagnostic) : String :=
  s!"{d.headline}\n    at {d.location.display}\n" ++ d.quotation ++ d.advice ++ d.callList

/-! ### The error block on a terminal -/

/-- The quotation and the caret, in pieces with their colours. -/
def quotationLines (d : Diagnostic) : List (List (Paint × String)) :=
  match d.snippet with
  | none => []
  | some line =>
    let trimmed := Blank.trim line
    [(.plain, "> " ++ trimmed)] ::
      if trimmed.isEmpty then [] else
        [[(.plain, "  " ++ blanks (d.caretOffset line)), (.error, "^")]]

/-- The advice, in pieces with their colours. -/
def adviceLines (d : Diagnostic) : List (List (Paint × String)) :=
  match d.suggestion with
  | none => []
  | some text => [[(.help, "Suggestion:"), (.plain, " " ++ text)]]

/-- The active calls, in pieces with their colours. -/
def callLines (d : Diagnostic) : List (List (Paint × String)) :=
  match d.stack with
  | [] => []
  | frames =>
    [(.strong, "Mimo Stack:")] ::
      frames.map fun f => [(.plain, s!"    at {f.function} ({f.location.display})")]

/-- What a terminal is sent for an error, line by line, in pieces with their colours. -/
def lines (d : Diagnostic) : List (List (Paint × String)) :=
  [[(.error, d.headline)], [(.plain, "    at "), (.place, d.location.display)]]
    ++ d.quotationLines ++ d.adviceLines ++ d.callLines

/-- What a terminal is sent for an error in a colour mode. -/
def emit (mode : ColorMode) (terminal : Bool) (d : Diagnostic) : String :=
  Paint.block (mode.enabled terminal) d.lines

end Diagnostic

end ScriptLang
