import ScriptLang.Library.Argument
import ScriptLang.Number.Decimal

/-!
# The module `datetime`

Instants in milliseconds, and their texts in universal time.
-/

namespace ScriptLang

namespace DatetimeReport

/-- The first argument is no instant. -/
def needsInstant (function : String) : Report :=
  .wrongType s!"{function}() expects a datetime object as its first argument."
    "Use a value returned from datetime.now() or datetime.from_timestamp()."

/-- A count of milliseconds is no number. -/
def millisType (got : Value) : Report :=
  .wrongType
    s!"datetime.from_timestamp() expects a number (milliseconds). Got '{got.typeName}'."
    "Provide a numeric timestamp."

/-- No instant has this count of milliseconds. -/
def outOfRange (millis : Float) : Report :=
  .badArgument <|
    "datetime.from_timestamp() received an out-of-range timestamp: "
      ++ Layout.plain.write millis ++ "."

/-- A pattern is no text. -/
def patternType (got : Value) : Report :=
  .wrongType
    (s!"datetime.format() expects a format string as its second argument. "
      ++ s!"Got '{got.typeName}'.")
    "Provide a format string (e.g., \"YYYY-MM-DD\")."

end DatetimeReport

namespace DatetimeFn

open Eval Argument

/-- The instant that a function works on. -/
def instantArg (function : String) (v : Value) (loc : Location) : Eval Instant :=
  match v with
  | .datetime t => pure t
  | _ => refuse (DatetimeReport.needsInstant function) loc

/-- The instant of a count of milliseconds. -/
def instantOf (millis : Float) : Option Instant :=
  if Binary.isFinite millis then
    let t : Instant := ⟨Binary.cutToInt64 millis⟩
    if t.inRange then some t else none
  else none

/-- The result of a function. -/
def run (f : DatetimeFn) (args : List Value) (loc : Location) : Eval Value :=
  let a := nth args 1
  match f with
  | .now => look fun m => .datetime m.now
  | .getTimestamp => do
    let t ← instantArg "datetime.get_timestamp" a loc
    return .number (Binary.ofInt t.millis)
  | .fromTimestamp =>
    match a with
    | .number millis =>
      match instantOf millis with
      | some t => pure (.datetime t)
      | none => refuse (DatetimeReport.outOfRange millis) loc
    | v => refuse (DatetimeReport.millisType v) loc
  | .toIsoString => do return .string (← instantArg "datetime.to_iso_string" a loc).iso
  | .format => do
    let t ← instantArg "datetime.format" a loc
    match nth args 2 with
    | .string pattern => return .string (t.format pattern)
    | v => refuse (DatetimeReport.patternType v) loc

end DatetimeFn

end ScriptLang
