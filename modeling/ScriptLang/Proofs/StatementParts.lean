import ScriptLang.Eval.Evaluator
import ScriptLang.Proofs.ExpressionParts

/-!
# Parts of statements

* `Stmt.parts` are the statements that a statement runs as parts of itself: the bodies of its
  branches, handlers, cases and loops, and the statement after a label. The body of a function is no
  part of its declaration, since it runs only when the function is called.
* `Stmt.binds` tells whether a statement may bind a name in the scope that it runs in. Branches,
  handlers, cases and rounds of loops have scopes of their own, so only declarations, function
  declarations, imports and calls with a destination do, besides what stands directly after a label
  or an `else`.
* `Stmt.room` is the scope that a statement may bind names in, if any.
* `Expr.functions`, `FunctionDef.defaults`, `Stmt.exprs` and `Stmt.functions` are the expressions
  and functions directly inside an expression, a function or a statement.
* `Stmt.loop?` tells whether a statement is a loop, and with which label: a label belongs to the
  loop that stands directly behind it.
* `Stmt.inside` are the statements that a statement runs. Those of a loop with a label are inside
  the statement with the label, since the two are one loop.
* `Stmt.jumps` are the jumps that a statement makes itself.
-/

namespace ScriptLang

/-- The statements of a case. -/
def Case.body : Case → List Stmt
  | .mk _ _ body _ => body

/-- The statements that follow a failed condition. -/
def Else.parts : Else → List Stmt
  | .nothing => []
  | .block body => body
  | .elseIf next => [next]

namespace Stmt

/-- The statements that a statement runs as parts of itself. -/
def parts : Stmt → List Stmt
  | .cond _ _ yes no => yes ++ no.parts
  | .guard _ _ body | .whileLoop _ _ body | .forEach _ _ _ body | .loop _ body => body
  | .labeled _ _ body => [body]
  | .attempt _ body _ handler => body ++ handler.getD []
  | .choose _ _ cases => cases.flatMap Case.body
  | _ => []

end Stmt

mutual

/-- Whether a statement may bind a name in the scope that it runs in. -/
def Stmt.binds : Stmt → Bool
  | .declare .. | .destructure .. | .function .. | .load .. => true
  | .call _ _ _ dest => dest.isSome
  | .labeled _ _ body => body.binds
  | .cond _ _ _ no => no.binds
  | _ => false

/-- Whether what follows a failed condition may bind a name in the scope that it runs in. -/
def Else.binds : Else → Bool
  | .elseIf next => next.binds
  | _ => false

end

/-- The scope that a statement may bind names in when it runs in `scope`. -/
def Stmt.room (s : Stmt) (scope : ScopeId) : Option ScopeId :=
  if s.binds then some scope else none

example (loc : Location) (c : Expr) (x : String) (e : Expr) :
    (Stmt.cond loc c [.declare loc .let (.name x) e false] .nothing).binds = false := rfl

/-! ### What a statement runs, and inside which loops -/

/-- The function that an expression makes a value of. -/
def Expr.functions : Expr → List FunctionDef
  | .function _ fn => [fn]
  | _ => []

/-- The defaults of parameters. -/
def FunctionDef.defaults (fn : FunctionDef) : List Expr := fn.params.filterMap Param.default?

/-- The condition of a case. -/
def Case.guard? : Case → Option Expr
  | .mk _ guard _ _ => guard

namespace Stmt

/-- Whether a statement is a loop, and its label if it has one. -/
def loop? : Stmt → Option (Option String)
  | .whileLoop .. | .forEach .. | .loop .. => some none
  | .labeled _ label (.whileLoop ..) | .labeled _ label (.forEach ..)
  | .labeled _ label (.loop ..) => some (some label)
  | _ => none

/-- The statements that a statement runs. -/
def inside : Stmt → List Stmt
  | .labeled _ _ (.whileLoop _ _ body) | .labeled _ _ (.forEach _ _ _ body)
  | .labeled _ _ (.loop _ body) => body
  | s => s.parts

/-- The expressions directly inside a statement. -/
def exprs : Stmt → List Expr
  | .declare _ _ _ e _ | .destructure _ _ e | .print _ e | .raise _ e | .expr _ e => [e]
  | .setProperty _ object _ value => [object, value]
  | .setIndex _ object index value => [object, index, value]
  | .cond _ test _ _ | .guard _ test _ => [test]
  | .whileLoop _ test _ | .labeled _ _ (.whileLoop _ test _) => [test]
  | .forEach _ _ e _ | .labeled _ _ (.forEach _ _ e _) => [e]
  | .call _ callee args _ => callee :: args.map Element.value
  | .giveBack _ e => e.toList
  | .choose _ e cases => e :: cases.filterMap Case.guard?
  | _ => []

/-- The function that a statement declares. -/
def functions : Stmt → List FunctionDef
  | .function _ fn _ => [fn]
  | _ => []

/-- The jump that a statement makes. -/
def jumps : Stmt → List Jump
  | .breakTo loc label | .continueTo loc label => [⟨label, loc⟩]
  | _ => []

end Stmt

example (loc : Location) (body : List Stmt) :
    (Stmt.labeled loc "outer" (.loop loc body)).loop? = some (some "outer") := rfl

end ScriptLang
