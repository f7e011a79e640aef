import ScriptLang.Library.Argument
import ScriptLang.Value.Equality

/-!
# The module `assert`

Functions that give true, or fail with the code `ASSERT_FAIL`.

* `assert.eq` and `assert.neq` compare by contents; `assert.true` and `assert.false` accept nothing
  but the very boolean.
* `assert.throws` calls a function without arguments; an error of any kind is what it asks for.
-/

namespace ScriptLang

namespace AssertReport

/-- An assertion failed. -/
def failed (message : String) : Report := ⟨"ASSERT_FAIL", message, ""⟩

/-- The argument that is to be called cannot be. -/
def needsFunction : Report :=
  .wrongType "assert.throws expects a function as the first argument."

end AssertReport

namespace AssertFn

open Eval Argument

/-- The remark that the argument at a position adds to a failure. -/
def remark (args : List Value) (position : Nat) : Eval String :=
  match optional args position with
  | some v => if v.truthy then do return ": " ++ (← print v) else pure ""
  | none => pure ""

/-- Fails with a remark and a reason. -/
def failWith (args : List Value) (position : Nat) (loc : Location) (reason : Eval String) :
    Eval Value := do
  let remark ← remark args position
  let reason ← reason
  refuse (AssertReport.failed s!"Assertion Failed{remark}.{reason}") loc

/-- Whether a value is a boolean. -/
def isBool (expected : Bool) : Value → Bool
  | .bool b => b == expected
  | _ => false

/-- Asserts that the argument is a boolean. -/
def expectBool (expected : Bool) (args : List Value) (loc : Location) : Eval Value :=
  let v := nth args 1
  if isBool expected v then pure (.bool true)
  else failWith args 2 loc do
    let got ← print v
    return s!" Expected {expected}, got {got}"

/-- The result of a function. -/
def run (ev : Evaluator) (f : AssertFn) (args : List Value) (loc : Location) : Eval Value :=
  let a := nth args 1
  let b := nth args 2
  match f with
  | .eq => do
    if ← lookHeap (·.deepEq a b) then return .bool true
    else
      failWith args 3 loc do
        let expected ← print b
        let actual ← print a
        return s!"\n   Expected: {expected}\n   Actual:   {actual}"
  | .neq => do
    if ← lookHeap (·.deepEq a b) then
      failWith args 3 loc (pure " Expected values to be different.")
    else return .bool true
  | .isTrue => expectBool true args loc
  | .isFalse => expectBool false args loc
  | .throws =>
    if !a.isCallable then refuse AssertReport.needsFunction loc
    else do
      let returned ← handle (some <$> ev.call a [] loc "assert.throws") fun _ => pure none
      match returned with
      | none => return .bool true
      | some _ =>
        failWith args 2 loc (pure " Expected function to throw an error, but it did not.")

end AssertFn

end ScriptLang
