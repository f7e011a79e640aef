import ScriptLang.Eval.Run
import ScriptLang.Proofs.Journals
import ScriptLang.Proofs.ConfinedLibrary

/-!
# The machine that programs start on

Installing the library fills containers and the global scope, and nothing else. So a program starts
with no imports under way, none recorded, an empty journal and the host that the run was given
(`Machine.initial_settled`).
-/

namespace ScriptLang

/-- The machines agree in everything but the heap, the scopes, the output, the random state and the
state of the host. -/
structure Machine.Settled (m m' : Machine) : Prop where
  context : m'.context = m.context
  modules : m'.modules = m.modules
  sources : m'.sources = m.sources
  paths : m'.host.paths = m.host.paths
  now : m'.now = m.now
  journal : m'.journal = m.journal

/-- The computation leaves the machine settled, however it ends. -/
structure Eval.Settles {α : Type} (x : Eval α) : Prop where
  settled : ∀ m : Machine, m.Settled (x m).machine

namespace Eval.Settles

variable {α β : Type}

theorem of_local {x : Eval α} (hx : Local x) : Settles x := by
  refine ⟨fun m => ?_⟩
  have h := hx.alike m
  exact ⟨h.context, h.modules, h.sources, h.paths, h.now, h.journal⟩

theorem andThen {x : Eval α} {f : α → Eval β} (hx : Settles x) (hf : ∀ a, Settles (f a)) :
    Settles (x >>= f) := by
  refine ⟨fun m => ?_⟩
  have h := hx.settled m
  change m.Settled (Eval.andThen x f m).machine
  unfold Eval.andThen
  cases e : x m with
  | ok a m₁ =>
    rw [e] at h
    have h' := (hf a).settled m₁
    exact ⟨h'.context.trans h.context, h'.modules.trans h.modules, h'.sources.trans h.sources,
      h'.paths.trans h.paths, h'.now.trans h.now, h'.journal.trans h.journal⟩
  | error d m₁ => rwa [e] at h
  | halt r m₁ => rwa [e] at h

theorem alterScopes (plan : Scopes → Except ScopeError ScopeWrite)
    (fault : ScopeError → RuntimeFault) (loc : Location) :
    Settles (Eval.alterScopes plan fault loc) := by
  refine ⟨fun m => ?_⟩
  unfold Eval.alterScopes
  -- Carried out or refused, a plan concerns the scopes alone.
  cases plan m.scopes with
  | ok w => exact ⟨rfl, rfl, rfl, rfl, rfl, rfl⟩
  | error e => exact ⟨rfl, rfl, rfl, rfl, rfl, rfl⟩

end Eval.Settles

namespace Machine

open Eval

theorem settles_installBuiltins (fs : List CoreFn) : Settles (installBuiltins fs) := by
  induction fs with
  | nil => exact .of_local (.of_pure ())
  | cons f fs ih =>
    exact .andThen (.of_local (.of_overHeap _)) fun id =>
      .andThen (.alterScopes ..) fun _ => ih

theorem settles_install : Settles install :=
  .andThen (settles_installBuiltins _) fun _ =>
    .andThen (.of_local (local_buildStandard _)) fun _ => .alterScopes ..

/-- The machine on which the library is installed. -/
def bare (setup : Setup) : Machine where
  context := { calls := .ofLimit setup.maxDepth }
  host := setup.host
  printer := setup.printer
  random := setup.random
  now := setup.now

theorem initial_eq (setup : Setup) : initial setup = (install (bare setup)).machine := rfl

/-- **The machine that programs start on.** Of what a run is given, the library changes nothing. -/
theorem initial_settled (setup : Setup) :
    (initial setup).context = { calls := .ofLimit setup.maxDepth } ∧
    (initial setup).modules = [] ∧
    (initial setup).host.paths = setup.host.paths ∧
    (initial setup).log = [] := by
  have h := settles_install.settled (bare setup)
  refine ⟨h.context, h.modules, h.paths, ?_⟩
  exact (log_congr h.journal).trans (Ghost.val_of [])

end Machine

end ScriptLang
