import ScriptLang.Library.Arrays
import ScriptLang.Library.Assertions
import ScriptLang.Library.Documents
import ScriptLang.Library.Numbers
import ScriptLang.Library.Objects
import ScriptLang.Library.Patterns
import ScriptLang.Library.Strings
import ScriptLang.Library.Surroundings
import ScriptLang.Library.Times

/-!
# Calling library functions

`Builtin.call` checks the number of arguments of a library function and runs it.
-/

namespace ScriptLang.Builtin

/-- The result of a library function, applied to a number of arguments that it takes. -/
def run (ev : Evaluator) (b : Builtin) (args : List Value) (loc : Location) : Eval Value :=
  match b with
  | core f => f.run args loc
  | array f => f.run ev args loc
  | assert f => f.run ev args loc
  | datetime f => f.run args loc
  | env f => f.run args loc
  | fs f => f.run args loc
  | http f => f.run args loc
  | json f => f.run args loc
  | math f => f.run args loc
  | object f => f.run ev args loc
  | path f => f.run args loc
  | regex f => f.run args loc
  | string f => f.run args loc

/-- The result of a library function, if it takes so many arguments. -/
def call (ev : Evaluator) (b : Builtin) (args : List Value) (loc : Location) : Eval Value :=
  if b.arity.accepts args.length then b.run ev args loc
  else Eval.fail (.builtinArguments b.name b.arity args.length) loc

theorem call_of_accepts {b : Builtin} {args : List Value} (h : b.arity.accepts args.length = true)
    (ev : Evaluator) (loc : Location) : b.call ev args loc = b.run ev args loc :=
  if_pos h

end ScriptLang.Builtin
