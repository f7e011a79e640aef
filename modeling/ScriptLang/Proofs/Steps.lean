import ScriptLang.Eval.Run

/-!
# The steps of a run

The evaluator is one function, and its outcome does not tell what it came by. To speak about every
moment of a run we let the run be watched: a watched run is the run, but it halts before the first
step that the watch is about.

* A *step* is a question that is put to the evaluator: an expression, a statement or a call, at a
  depth and in a machine (`Question`). Whatever a run does it does in answering a question, so the
  questions are the moments of the run.
* `Evaluator.halting` halts before some of the questions to an evaluator, and
  `Evaluator.watching` ties the knot as `Evaluator.ofBound` does, with the same watch at every
  depth.
* `Machine.Never` says that no step of a run is of a certain kind. Nothing handles a halt, so a run
  that came to such a step would end there if it were watched, for whatever reason we choose.
-/

namespace ScriptLang

/-- What is asked of an evaluator. -/
inductive Question where
  | expr (e : Expr)
  | stmt (s : Stmt)
  | call (f : Value) (args : List Value) (loc : Location) (name : String)

namespace Eval

variable {α : Type}

open Classical in
/-- Halts in the machines where `P` holds, and runs `x` in the others. -/
noncomputable def haltingIn (P : Machine → Prop) (r : Halt) (x : Eval α) : Eval α := fun m =>
  if P m then .halt r m else x m

theorem haltingIn_of {P : Machine → Prop} {r : Halt} {x : Eval α} {m : Machine} (h : P m) :
    haltingIn P r x m = .halt r m := if_pos h

theorem haltingIn_of_not {P : Machine → Prop} {r : Halt} {x : Eval α} {m : Machine}
    (h : ¬ P m) : haltingIn P r x m = x m := if_neg h

end Eval

/-- What a question is answered with. -/
def Question.Answer : Question → Type
  | .stmt _ => Flow
  | .expr _ | .call .. => Value

namespace Evaluator

/-- The answer to a question. -/
def answer (ev : Evaluator) : (q : Question) → Eval q.Answer
  | .expr e => ev.expr e
  | .stmt s => ev.stmt s
  | .call f args loc name => ev.call f args loc name

/-- The rules of the language over an evaluator, with a bound on the rounds of loops. -/
def deeper (ev : Evaluator) (bound : Nat) : Evaluator :=
  ⟨Eval.expression ev, Eval.statement ev, Eval.callValue ev, bound⟩

theorem ofBound_succ (n : Nat) : ofBound (n + 1) = (ofBound n).deeper n := by
  simp only [ofBound, deeper, atLevel_eq]

/-- Halts before the questions that `P` is about. -/
noncomputable def halting (P : Question → Machine → Prop) (r : Halt) (ev : Evaluator) :
    Evaluator :=
  ⟨fun e => Eval.haltingIn (P (.expr e)) r (ev.expr e),
    fun s => Eval.haltingIn (P (.stmt s)) r (ev.stmt s),
    fun f args loc name => Eval.haltingIn (P (.call f args loc name)) r (ev.call f args loc name),
    ev.bound⟩

theorem answer_halting (P : Question → Machine → Prop) (r : Halt) (ev : Evaluator) (q : Question) :
    (ev.halting P r).answer q = Eval.haltingIn (P q) r (ev.answer q) := by
  cases q <;> rfl

/-- **Watching.** The evaluator down to a depth, which halts before every step that `P` is about. -/
noncomputable def watching (P : Nat → Question → Machine → Prop) (r : Halt) : Nat → Evaluator
  | 0 => (ofBound 0).halting (P 0) r
  | n + 1 => ((watching P r n).deeper n).halting (P (n + 1)) r

/-- Halting before nothing. -/
theorem halting_nothing (r : Halt) (ev : Evaluator) : ev.halting (fun _ _ => False) r = ev := by
  have h {α : Type} (x : Eval α) : Eval.haltingIn (fun _ => False) r x = x :=
    funext fun _ => Eval.haltingIn_of_not id
  simp only [halting, h]

theorem watching_nothing (r : Halt) (n : Nat) : watching (fun _ _ _ => False) r n = ofBound n := by
  induction n with
  | zero => exact halting_nothing ..
  | succ n ih => rw [watching, ih, ← ofBound_succ, halting_nothing]

/-- The depth of the evaluator that runs programs. -/
def height : Nat := Nat.pow 2 60 - 1

end Evaluator

namespace Machine

/-- Runs a program as a file, over a given evaluator. -/
def interpretOver (ev : Evaluator) (p : Program) (file : String) : Eval Value :=
  completed <|
    Eval.inCall ⟨rootName, p.location⟩ <|
      Eval.inFile Scopes.root file do
        (← Eval.runStatements ev p.statements).atBoundary fun v => v

theorem interpret_eq (p : Program) (file : String) :
    interpret p file = interpretOver (Evaluator.ofBound Evaluator.height) p file := rfl

/-- **Never.** No step of the run of a program is one that `P` is about: the run is as it would be
if it halted before every such step. -/
def Never (P : Nat → Question → Machine → Prop) (p : Program) (file : String) (m : Machine) :
    Prop :=
  ∀ r, interpretOver (Evaluator.watching P r Evaluator.height) p file m = interpret p file m

end Machine

end ScriptLang
