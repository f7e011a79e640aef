/-!
# Output

Where a program's output goes: it is collected, or dropped.
-/

namespace ScriptLang

/-- The output of a program. -/
inductive Printer where
  /-- Both channels are collected. -/
  | buffer (output errors : String)
  /-- Nothing is kept. -/
  | silent
  deriving DecidableEq, Repr, Inhabited

namespace Printer

/-- Nothing collected yet. -/
def empty : Printer := .buffer "" ""

/-- Writes to the normal channel. -/
def print : Printer → String → Printer
  | .buffer output errors, text => .buffer (output ++ text) errors
  | .silent, _ => .silent

/-- Writes a line to the normal channel. -/
def printLine : Printer → String → Printer
  | .buffer output errors, text => .buffer (output ++ text ++ "\n") errors
  | .silent, _ => .silent

/-- Writes a line to the channel of errors. -/
def printErrorLine : Printer → String → Printer
  | .buffer output errors, text => .buffer output (errors ++ text ++ "\n")
  | .silent, _ => .silent

/-- Forgets what was collected. -/
def clear : Printer → Printer
  | .buffer .. => empty
  | .silent => .silent

/-- What was collected of the normal channel. -/
def output : Printer → String
  | .buffer output _ => output
  | .silent => ""

/-- What was collected of the channel of errors. -/
def errors : Printer → String
  | .buffer _ errors => errors
  | .silent => ""

end Printer

end ScriptLang
