import ScriptLang.Eval.Access
import ScriptLang.Eval.Call

/-!
# The rules of expressions

`Eval.expression` is the value of an expression over a given evaluator. Operands are computed from
left to right, all of them, before an operator is applied.
-/

namespace ScriptLang.Eval

/-- The nearest name to one that is missing. -/
def undefinedName {α : Type} (name : String) (loc : Location) : Eval α := fun m =>
  let nearest := Nearest.choose name (m.scopes.visible m.context.scope)
  fail (.undefined name nearest) loc m

/-- The value of a name. -/
def nameValue (name : String) (loc : Location) : Eval Value := do
  match ← look fun m => m.scopes.lookup? name m.context.scope with
  | some v => pure v
  | none => undefinedName name loc

/-- The elements of an array literal, taken onto `done`. -/
def elementsOnto (ev : Evaluator) : Array Value → List Element → Eval (Array Value)
  | done, [] => pure done
  | done, .item e :: rest => do
    let v ← ev.expr e
    elementsOnto ev (done.push v) rest
  | done, .spread e :: rest => do
    let v ← ev.expr e
    let vs ← spread v (.spreadNonArray v.typeName) e.location
    elementsOnto ev (done ++ vs.toArray) rest

/-- The entries of an object literal, taken onto `done`. -/
def entriesOnto (ev : Evaluator) : OrderedMap Value → List Entry → Eval (OrderedMap Value)
  | done, [] => pure done
  | done, .property key e :: rest => do
    let v ← ev.expr e
    entriesOnto ev (done.insert key v) rest
  | done, .spread e :: rest => do
    match ← ev.expr e with
    | .object r =>
      let entries ← lookHeap fun h => (h.object r).toList
      entriesOnto ev (done.insertAll entries) rest
    | v => fail (.spreadNonObject v.typeName) e.location

/-- The text of a template, taken onto `done`. -/
def partsOnto (ev : Evaluator) : String → List Part → Eval String
  | done, [] => pure done
  | done, .text t :: rest => partsOnto ev (done ++ t) rest
  | done, .expr e :: rest => do
    let t ← print (← ev.expr e)
    partsOnto ev (done ++ t) rest

/-- Texts in the order of their code points. -/
def sortedNames (names : List String) : List String :=
  names.mergeSort fun a b => !(decide (b < a))

/-- The member of a module. -/
def moduleMember (module name : String) (loc : Location) : Eval Value := do
  match ← nameValue module loc with
  | .object r =>
    let entries ← object r
    match entries.get? name with
    | some v => pure v
    | none =>
      let available := sortedNames entries.keys
      fail (.memberMissing name module available (Nearest.choose name available)) loc
  | _ => fail (.moduleType module) loc

/-- The result of a call expression or statement. The callee is computed and checked before the
arguments are. -/
def callExpr (ev : Evaluator) (callee : Expr) (args : List Element) (safe : Bool)
    (loc : Location) : Eval Value := do
  let f ← ev.expr callee
  if safe && f.isNull then pure .null
  else
    let name := callee.calleeName
    requireCallable f name loc
    let vs ← arguments ev args
    ev.call f vs loc name

/-- The value of an expression. -/
def expression (ev : Evaluator) : Expr → Eval Value
  | .ident loc name => nameValue name loc
  | .literal _ l => pure (.ofLiteral l)
  | .binary loc op l r => do
    let a ← ev.expr l
    let b ← ev.expr r
    combine op a b loc
  | .unary loc op e => do applyUnary op (← ev.expr e) loc
  | .array _ items => do newArray (← elementsOnto ev #[] items)
  | .object _ entries => do newObject (← entriesOnto ev .empty entries)
  | .property loc e name safe => do memberOf (← ev.expr e) name safe loc
  | .index _ e index safe => do
    let target ← ev.expr e
    if safe && target.isNull then pure .null
    else
      let key ← ev.expr index
      elementOf target key e.location
  | .member loc module name => moduleMember module name loc
  | .call loc callee args safe => callExpr ev callee args safe loc
  | .template _ parts => do return .string (← partsOnto ev "" parts)
  | .function _ fn => newClosure fn
  | .inlineIf _ test yes no => do
    if (← ev.expr test).truthy then ev.expr yes else ev.expr no
  | .pipe loc e callee args => do
    let v ← ev.expr e
    let f ← ev.expr callee
    let name := callee.calleeName
    requireCallable f name loc
    let vs ← arguments ev args
    ev.call f (v :: vs) loc name

end ScriptLang.Eval
