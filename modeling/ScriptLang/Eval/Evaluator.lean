import ScriptLang.Eval.Machine

/-!
# Evaluators

The three computations that the rules of the language call on each other: the value of an
expression, the effect of a statement and the result of a call. The rules are written over a given
`Evaluator`; `Eval.Run` ties the knot with a bound on the depth of the computation.

* A `Flow` is how a statement ends: on its own, or by a jump that a loop or function has to catch.
* `Jump.targets` tells which loop a jump means: the innermost one, or the one with its label.
* `Flow.atBoundary` is what the end of a function or file makes of a flow.
-/

namespace ScriptLang

/-- A jump out of the body of a loop. -/
structure Jump where
  label : Option String
  location : Location
  deriving DecidableEq, Repr, Inhabited

/-- Whether a jump means a loop with this label. -/
def Jump.targets (j : Jump) (label : Option String) : Bool :=
  match j.label with
  | none => true
  | some l => label == some l

/-- How a statement ends. -/
inductive Flow where
  /-- On its own, with a value. -/
  | normal (v : Value)
  /-- By returning a value. -/
  | giveBack (v : Value)
  /-- By leaving a loop. -/
  | breakTo (j : Jump)
  /-- By starting the next round of a loop. -/
  | continueTo (j : Jump)
  deriving Inhabited

/-- The value with which a function or file ends. `normal` is the value of an end on its own; a jump
cannot leave a function or file. -/
def Flow.atBoundary (normal : Value → Value) : Flow → Eval Value
  | .giveBack v => pure v
  | .normal v => pure (normal v)
  | .breakTo j => Eval.fail (.strayJump "break" j.label) j.location
  | .continueTo j => Eval.fail (.strayJump "continue" j.label) j.location

/-- The computations that the rules of the language call on each other. -/
structure Evaluator where
  /-- The value of an expression. -/
  expr : Expr → Eval Value
  /-- The effect of a statement. -/
  stmt : Stmt → Eval Flow
  /-- The result of calling a value with arguments at a place; the name is for messages. -/
  call : Value → List Value → Location → String → Eval Value
  /-- More than the rounds of any loop. -/
  bound : Nat

end ScriptLang
