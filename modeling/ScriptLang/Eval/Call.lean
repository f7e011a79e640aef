import ScriptLang.Eval.Evaluator

/-!
# Calls

Arguments, parameters and the bodies of functions.

* `Eval.arguments` computes arguments and takes spread arrays apart.
* `Eval.callClosure` calls a function of the program: it checks the number of arguments, binds the
  parameters in a new scope, enters the call and runs the body. Defaults are computed in the new
  scope, before the call counts as active.
* `Eval.runStatements` runs a body; functions declared in it are known from its beginning.
-/

namespace ScriptLang.Eval

/-- A function value of the current scope. -/
def newClosure (fn : FunctionDef) : Eval Value := do
  return .closure (← newIdentity) fn (← scope)

/-- Declares the functions of a body that are not declared yet. -/
def hoist : List Stmt → Eval Unit
  | [] => pure ()
  | .function loc fn _ :: rest => do
    match fn.name? with
    | none => hoist rest
    | some name =>
      if ← declared name then hoist rest
      else
        define name (← newClosure fn) .set loc
        hoist rest
  | _ :: rest => hoist rest

/-- Runs statements one after the other, up to one that jumps. `last` is the value so far. -/
def runFrom (ev : Evaluator) : List Stmt → Value → Eval Flow
  | [], last => pure (.normal last)
  | s :: rest, _ => do
    match ← ev.stmt s with
    | .normal v => runFrom ev rest v
    | flow => pure flow

/-- Runs a body in the current scope. -/
def runStatements (ev : Evaluator) (body : List Stmt) : Eval Flow := do
  hoist body
  runFrom ev body .null

/-- The elements that a spread value stands for. -/
def spread (v : Value) (fault : RuntimeFault) (loc : Location) : Eval (List Value) :=
  match v with
  | .array r => lookHeap fun h => (h.array r).toList
  | _ => fail fault loc

/-- The arguments of a call, taken onto `done`, which holds the last one first. -/
def argumentsOnto (ev : Evaluator) : List Value → List Element → Eval (List Value)
  | done, [] => pure done.reverse
  | done, .item e :: rest => do
    let v ← ev.expr e
    argumentsOnto ev (v :: done) rest
  | done, .spread e :: rest => do
    let vs ← spread (← ev.expr e) .spreadArgument e.location
    argumentsOnto ev (vs.reverse ++ done) rest

/-- The arguments of a call. -/
def arguments (ev : Evaluator) (elements : List Element) : Eval (List Value) :=
  argumentsOnto ev [] elements

/-- Binds parameters to arguments, and gives the arguments that remain. -/
def bindParams (ev : Evaluator) (loc : Location) : List Param → List Value → Eval (List Value)
  | [], args => pure args
  | p :: ps, v :: args => do
    define p.name v .set loc
    bindParams ev loc ps args
  | p :: ps, [] => do
    let v ← match p.default? with
      | some e => ev.expr e
      | none => pure .null
    define p.name v .set loc
    bindParams ev loc ps []

/-- Binds the rest parameter to the arguments that remain. -/
def bindRest (name : Option String) (args : List Value) (loc : Location) : Eval Unit :=
  match name with
  | some name => do define name (← newList args) .set loc
  | none => pure ()

/-- Calls a function of the program. -/
def callClosure (ev : Evaluator) (fn : FunctionDef) (home : ScopeId) (args : List Value)
    (loc : Location) : Eval Value := do
  let name := fn.displayName
  let got := args.length
  let most := fn.params.length
  if got < fn.required then fail (.tooFewArguments name fn.required got) loc
  else if fn.rest?.isNone && most < got then fail (.tooManyArguments name most got) loc
  else
    inFunction name do
      let id ← newChildOf home .function
      inScope id do
        let remaining ← bindParams ev loc fn.params args
        bindRest fn.rest? remaining loc
        inCall ⟨name, loc⟩ do
          (← runStatements ev fn.body).atBoundary fun _ => .null

/-- Whether a value can be called, or the fault. -/
def requireCallable (f : Value) (name : String) (loc : Location) : Eval Unit :=
  if f.isCallable then pure () else fail (.notCallable name) loc

end ScriptLang.Eval
