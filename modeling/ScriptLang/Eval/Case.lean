import ScriptLang.Eval.Call
import ScriptLang.Value.Equality

/-!
# Cases of a match

* `Pattern.match?` compares a value with a pattern and gives the names that the pattern binds. A
  name bound twice keeps its first place and its last value.
* `Eval.firstCase` runs the first case whose pattern matches and whose condition holds. The
  condition is computed in the scope of the case, where it sees the names of the pattern.
-/

namespace ScriptLang

mutual

/-- The names that a pattern binds when it matches a value, inserted into those bound before. -/
def Pattern.matchOnto (h : Heap) (bound : OrderedMap Value) (v : Value) :
    Pattern → Option (OrderedMap Value)
  | .literal l => if v.isLiteral l then some bound else none
  | .bind name => some (bound.insert name v)
  | .array elements =>
    match v with
    | .array r => Pattern.matchAllOnto h bound (h.array r).toList elements
    | _ => none

/-- The names that patterns bind when they match values one by one. -/
def Pattern.matchAllOnto (h : Heap) (bound : OrderedMap Value) :
    List Value → List Pattern → Option (OrderedMap Value)
  | [], [] => some bound
  | v :: vs, p :: ps =>
    match Pattern.matchOnto h bound v p with
    | some bound => Pattern.matchAllOnto h bound vs ps
    | none => none
  | _, _ => none

end

/-- The names that a pattern binds when it matches a value. -/
def Pattern.match? (h : Heap) (v : Value) (p : Pattern) : Option (OrderedMap Value) :=
  p.matchOnto h .empty v

namespace Eval

/-- Declares names in a scope. -/
def defineAll (id : ScopeId) (loc : Location) : List (String × Value) → Eval Unit
  | [] => pure ()
  | (name, v) :: rest => do
    defineIn id name v .let loc
    defineAll id loc rest

/-- Whether a condition holds; where there is none, it always does. -/
def holds (ev : Evaluator) : Option Expr → Eval Bool
  | none => pure true
  | some e => do return (← ev.expr e).truthy

/-- The names that the pattern of a case binds when it matches a value; a case without a pattern
matches every value. -/
def caseNames (v : Value) : Option Pattern → Eval (Option (OrderedMap Value))
  | none => pure (some .empty)
  | some p => lookHeap fun h => p.match? h v

/-- Runs the statements of a case in its scope, if its condition holds. -/
def runCase (ev : Evaluator) (id : ScopeId) (guard : Option Expr) (body : List Stmt) :
    Eval (Option Flow) :=
  inScope id do
    if ← holds ev guard then some <$> runStatements ev body else return none

/-- Runs the first case that applies to a value; `none` if there is none. -/
def firstCase (ev : Evaluator) (v : Value) : List Case → Eval (Option Flow)
  | [] => pure none
  | .mk pattern guard body loc :: rest => do
    match ← caseNames v pattern with
    | none => firstCase ev v rest
    | some bound =>
      let id ← newChild .block
      defineAll id loc bound.toList
      match ← runCase ev id guard body with
      | some flow => pure (some flow)
      | none => firstCase ev v rest

/-- Runs the first case that applies to the value of an expression. -/
def choose (ev : Evaluator) (e : Expr) (cases : List Case) : Eval Flow := do
  let v ← ev.expr e
  match ← firstCase ev v cases with
  | some flow => pure flow
  | none => fail (.noCase (← print v)) e.location

end Eval

end ScriptLang
