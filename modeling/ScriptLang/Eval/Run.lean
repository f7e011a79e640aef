import ScriptLang.Eval.Statement
import ScriptLang.Library.Dispatch

/-!
# Running programs

* `Evaluator.ofBound` ties the rules of expressions, statements and calls together, down to a depth.
  `Evaluator.full` has a bound that no run meets.
* `Machine.initial` is the state in which programs start: the library's functions are bound in the
  global scope.
* `Machine.interpret` runs a parsed program, `Machine.callFunction` calls a function value, and
  `Machine.runSource` reads and runs a text.
-/

namespace ScriptLang

namespace Eval

/-- The result of calling a value. -/
def callValue (ev : Evaluator) (f : Value) (args : List Value) (loc : Location) (name : String) :
    Eval Value :=
  match f with
  | .closure _ fn home => callClosure ev fn home args loc
  | .builtin _ b => b.call ev args loc
  | _ => fail (.notCallable name) loc

end Eval

/-- How many levels of a computation share a native stack. -/
def stackLevels : Nat := 1024

/-- A result, computed on a native stack of its own at every so many levels. -/
@[inline] def atLevel {α : Type} (level : Nat) (f : Unit → α) : α :=
  if level % stackLevels = 0 then (Task.spawn f Task.Priority.dedicated).get else f ()

@[simp] theorem atLevel_eq {α : Type} (level : Nat) (f : Unit → α) : atLevel level f = f () := by
  unfold atLevel
  split <;> rfl

/-- The evaluator down to a depth. -/
def Evaluator.ofBound : Nat → Evaluator
  | 0 =>
    ⟨fun _ => Eval.halt .exhausted, fun _ => Eval.halt .exhausted,
      fun _ _ _ _ => Eval.halt .exhausted, 0⟩
  | n + 1 =>
    ⟨fun e m => atLevel n fun _ => Eval.expression (Evaluator.ofBound n) e m,
      fun s m => atLevel n fun _ => Eval.statement (Evaluator.ofBound n) s m,
      fun f args loc name m =>
        atLevel n fun _ => Eval.callValue (Evaluator.ofBound n) f args loc name m,
      n⟩

/-- The evaluator with a bound that no run meets. -/
def Evaluator.full : Evaluator := Evaluator.ofBound (Nat.pow 2 60 - 1)

namespace Machine

/-- Binds the functions of every program in the global scope. -/
def installBuiltins : List CoreFn → Eval Unit
  | [] => pure ()
  | f :: fs => do
    let id ← Eval.newIdentity
    Eval.defineIn Scopes.root f.signature.1 (.builtin id (.core f)) .set default
    installBuiltins fs

/-- Binds the library in the global scope. -/
def install : Eval Unit := do
  installBuiltins CoreFn.all
  let array ← Eval.buildStandard .array
  Eval.defineIn Scopes.root "Array" array .set default

/-- What a run is given: the largest number of active calls, the host, where output goes, a first
random state and the present. -/
structure Setup where
  maxDepth : Option Nat := some 10000
  host : Host := .denied
  printer : Printer := .empty
  random : Nat := 1
  now : Instant := ⟨0⟩
  deriving Inhabited

/-- The state in which programs start. -/
def initial (setup : Setup) : Machine :=
  (install {
    context := { calls := .ofLimit setup.maxDepth }
    host := setup.host
    printer := setup.printer
    random := setup.random
    now := setup.now }).machine

/-- An error as it leaves the program: with the active calls and the source line. -/
def complete (m : Machine) (d : Diagnostic) : Diagnostic :=
  let d := m.context.calls.attach d
  if d.snippet.isSome then d
  else
    match m.sources.get? d.location.file with
    | some source => d.withSource source
    | none => d

/-- Completes the error of a computation. -/
def completed {α : Type} (x : Eval α) : Eval α := fun m =>
  match x m with
  | .error d m => .error (m.complete d) m
  | o => o

/-- The name of the outermost call. -/
def rootName : String := "<root>"

/-- Runs a program as a file: the value of its last statement, or the value it returns. -/
def interpret (p : Program) (file : String) : Eval Value :=
  completed <|
    Eval.inCall ⟨rootName, p.location⟩ <|
      Eval.inFile Scopes.root file do
        (← Eval.runStatements Evaluator.full p.statements).atBoundary fun v => v

/-- Calls a function value. -/
def callFunction (f : Value) (args : List Value) (loc : Location) : Eval Value :=
  Evaluator.full.call f args loc "<expression>"

/-- Records the text of a file, so that errors can quote it. -/
def addSource (m : Machine) (file source : String) : Machine :=
  { m with sources := m.sources.add file source }

/-- The error of a run that broke down by a fault. -/
def brokenDown (fault : RuntimeFault) (file : String) : Diagnostic :=
  fault.toDiagnostic (.synthetic file)

/-- How a run ends. -/
inductive End where
  | value (v : Value)
  | error (d : Diagnostic)
  /-- The program was left with a code. -/
  | left (code : Int)

/-- The end of a run of a file, and the state that it leaves. -/
def finish (file : String) : Outcome Value → End × Machine
  | .ok v m => (.value v, m)
  | .error d m => (.error d, m)
  | .halt (.left code) m => (.left code, m)
  | .halt .unordered m => (.error (brokenDown .withoutOrder file), m)
  | .halt _ m => (.error (brokenDown .writeWhileRead file), m)

/-- Runs a parsed program. -/
def run (m : Machine) (p : Program) (file : String) : End × Machine :=
  finish file (interpret p file m)

/-- Reads and runs a text as a file. -/
def runSource (m : Machine) (source file : String) : End × Machine :=
  match Program.ofSource source file with
  | .error d => (.error d, m)
  | .ok p => (m.addSource file source).run p file

end Machine

end ScriptLang
