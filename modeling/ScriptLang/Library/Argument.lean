import ScriptLang.Eval.Evaluator

/-!
# Arguments of library functions

Access to arguments and the checks that the functions of the library share. Positions count from
one, as messages do. A function is run only with a number of arguments that its arity accepts, so an
argument that the arity demands is there.

* `Argument.number`, `Argument.text`, `Argument.array` and `Argument.callback` check the type of an
  argument.
* `Argument.relativeIndex` reads a number as a position in a collection, negative ones from its end.
* `Argument.callCallback` calls a function of the program with as many arguments as it declares.
-/

namespace ScriptLang

/-- The error of an argument of the wrong type. -/
def Report.wrongType (message : String) (advice : String := "") : Report :=
  ⟨"TYPE001", message, advice⟩

/-- The error of an argument with a value that cannot be used. -/
def Report.badArgument (message : String) (advice : String := "") : Report :=
  ⟨"ARG001", message, advice⟩

namespace Argument

/-- The argument at a position, null if it is not given. -/
def nth (args : List Value) (position : Nat) : Value := args.getD (position - 1) .null

/-- The argument at a position, if it is given. -/
def given? (args : List Value) (position : Nat) : Option Value := args[position - 1]?

/-- The argument at a position, unless it is not given or null. -/
def optional (args : List Value) (position : Nat) : Option Value :=
  match given? args position with
  | some .null => none
  | v => v

/-- What is said of an argument of the wrong type. -/
def typeReport (function what : String) (position : Nat) (got : Value) : Report :=
  .wrongType s!"{function}() expects {what} as argument {position}. Got '{got.typeName}'."
    s!"Ensure argument {position} for '{function}' is {what}."

/-- A number. -/
def number (function : String) (v : Value) (position : Nat) (loc : Location) : Eval Float :=
  match v with
  | .number x => pure x
  | v => Eval.refuse (typeReport function "a number" position v) loc

/-- A text. -/
def text (function : String) (v : Value) (position : Nat) (loc : Location) : Eval String :=
  match v with
  | .string s => pure s
  | v => Eval.refuse (typeReport function "a string" position v) loc

/-- An array. -/
def array (function : String) (v : Value) (position : Nat) (loc : Location) : Eval Ref :=
  match v with
  | .array r => pure r
  | v => Eval.refuse (typeReport function "an array" position v) loc

/-- A function of the program. -/
structure Callback where
  value : Value
  fn : FunctionDef

/-- A function of the program; those of the library do not count. -/
def callback (function : String) (v : Value) (position : Nat) (loc : Location) : Eval Callback :=
  match v with
  | .closure _ fn _ => pure ⟨v, fn⟩
  | v => Eval.refuse (typeReport function "a Mimo function" position v) loc

/-- Calls a callback with the first of some arguments: as many as it has parameters, or all of them
if it has a rest parameter. -/
def callCallback (ev : Evaluator) (f : Callback) (args : List Value) (loc : Location) :
    Eval Value :=
  let args := if f.fn.rest?.isSome then args else args.take f.fn.params.length
  ev.call f.value args loc f.fn.displayName

/-- A number as a position in a collection: negative ones count from its end, and all are clamped to
the collection. -/
def relativeIndex (x : Float) (length : Nat) : Nat :=
  let i := Binary.cutToInt64 x
  if i < 0 then (length + i).toNat else min i.toNat length

/-- A number argument that may be left out. -/
def optionalNumber (function : String) (args : List Value) (position : Nat) (loc : Location) :
    Eval (Option Float) :=
  match given? args position with
  | none => pure none
  | some v => some <$> number function v position loc

end Argument

end ScriptLang
