import ScriptLang.Proofs.Evaluator
import ScriptLang.Proofs.Imports

/-!
# The context comes back

Where a computation runs — the scope, the file, the active calls and the imports under way — is
switched by blocks, rounds of loops, handlers, cases, calls, imports and whole programs. Each of
them has several ways out, and an error takes the shortest. This file shows that none of them
forgets to switch back.

* `Eval.Restores` says it of one computation: however it ends, by a result or by an error, the
  machine that it leaves is in the context that it was started in. The present and the path rules of
  the host, which only a run as a whole is given, are the same as well.
* `context_restored` is the main statement, for the computations of the evaluator at every depth,
  for blocks and imports, for whole programs, for calls from outside, and for any number of
  requests one after the other. After a program that failed, the next request therefore starts where
  it would have started without that program.

The proof is the walk over the evaluator (`Discipline.evaluates_ofBound`) for a discipline that asks
for hardly anything: giving the context back is part of the judgement itself.
-/

namespace ScriptLang

/-- However the computation ends, unless it halts, the context, the present and the path rules are
those from before. -/
def Eval.Restores {α : Type} (x : Eval α) : Prop :=
  ∀ m, match x m with
    | .ok _ m' | .error _ m' =>
      m'.context = m.context ∧ m'.now = m.now ∧ m'.host.paths = m.host.paths
    | .halt _ _ => True

namespace Discipline

/-- The discipline of what only a run as a whole is given. It asks nothing of halted machines, and
every statement may run anywhere. -/
def setting : Discipline where
  keeps _ m m' := m'.now = m.now ∧ m'.host.paths = m.host.paths
  halts _ _ _ := True
  fits _ _ := True

theorem setting_oblivious : setting.Oblivious where
  alike h := ⟨h.now, h.paths⟩
  trans h h' := ⟨h'.1.trans h.1, h'.2.trans h.2⟩
  widen h := h
  write _ _ := ⟨rfl, rfl⟩
  child h := h
  moves _ := ⟨fun _ _ h => h, fun _ _ => trivial⟩
  alike_halts _ := trivial
  keeps_halts _ _ := trivial
  widen_halts _ := trivial
  child_halts _ := trivial
  part _ _ := trivial
  atScope _ := trivial
  body := trivial
  program _ _ _ := trivial
  sources _ := ⟨rfl, rfl⟩
  probed _ := ⟨rfl, Host.paths_asked _⟩
  sought _ _ := ⟨rfl, rfl⟩
  importing _ _ := ⟨fun _ _ h => h, fun _ _ => trivial⟩
  modules _ := ⟨rfl, rfl⟩
  note _ := ⟨rfl, rfl⟩

end Discipline

open Discipline

/-- What obeys the discipline of settings in every context restores its context. -/
private theorem restores_of_obeys {α : Type} {x : Eval α}
    (hx : ∀ c, ∃ i, setting.Obeys c i x) : Eval.Restores x := by
  intro m
  obtain ⟨i, hi⟩ := hx m.context
  have h := hi.ends m rfl
  cases e : x m with
  | ok a m' => rw [e] at h; exact h
  | error d m' => rw [e] at h; exact h
  | halt r m' => trivial

/-- **The context is restored.** Expressions, statements, blocks, calls and imports at every depth,
programs, calls from outside and any number of requests end in the context that they were started
in, whether they succeed or fail. -/
theorem context_restored (n : Nat) :
    (∀ e, Eval.Restores ((Evaluator.ofBound n).expr e)) ∧
    (∀ s, Eval.Restores ((Evaluator.ofBound n).stmt s)) ∧
    (∀ id body,
      Eval.Restores (Eval.inScope id (Eval.runStatements (Evaluator.ofBound n) body))) ∧
    (∀ f args loc name, Eval.Restores ((Evaluator.ofBound n).call f args loc name)) ∧
    (∀ path loc, Eval.Restores (Eval.importModule (Evaluator.ofBound n) path loc)) ∧
    (∀ p file, Eval.Restores (Machine.interpret p file)) ∧
    (∀ f args loc, Eval.Restores (Machine.callFunction f args loc)) ∧
    (∀ requests, Eval.Restores (Machine.serve requests)) := by
  have hO := setting_oblivious
  have hL := hO.toLawful
  have hev := evaluates_ofBound hL hO.imports n
  have hfits (c : Context) (s : Stmt) : setting.fits c s := trivial
  refine ⟨fun e => ?_, fun s => ?_, fun id body => ?_, fun f args loc name => ?_,
    fun path loc => ?_, fun p file => ?_, fun f args loc => ?_, fun requests => ?_⟩
  · exact restores_of_obeys fun c => ⟨none, hev.expr c e⟩
  · exact restores_of_obeys fun c => ⟨_, hev.stmt c s trivial⟩
  · exact restores_of_obeys fun c => ⟨_, obeys_inScope hL hev (fun _ _ => trivial) id⟩
  · exact restores_of_obeys fun c => ⟨none, hev.call c f args loc name⟩
  · refine restores_of_obeys fun c => ⟨none, ?_⟩
    exact hO.imports hev (hfits c (.load loc path path))
  · exact restores_of_obeys fun c => ⟨_, obeys_request hL hO.imports hfits (.interpret p file) c⟩
  · exact restores_of_obeys fun c =>
      ⟨_, obeys_request hL hO.imports hfits (.callFunction f args loc) c⟩
  · exact restores_of_obeys fun c => ⟨_, obeys_serve hL hO.imports hfits requests c⟩

end ScriptLang
