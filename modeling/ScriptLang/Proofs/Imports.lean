import ScriptLang.Proofs.Evaluator

/-!
# Imports under a discipline

What an import does besides running statements: it asks the host where the file is and what it
holds, keeps a record of what it gives, and writes events into the journal.

* `Discipline.obeys_resolveImport` and `Discipline.obeys_runFile` — finding a file and running it,
  which every lawful discipline allows.
* `Discipline.Oblivious` — the further obligations on a discipline that does not care about the
  record of imports and about the imports under way.
* `Discipline.Oblivious.imports` — such a discipline holds of imports, thus of the evaluator.
-/

namespace ScriptLang.Discipline

variable {D : Discipline} {c : Context} {m m' : Machine}

theorem Lawful.probes (hD : D.Lawful) (h : m.Probes m') : D.keeps none m m' := by
  induction h with
  | refl m => exact hD.alike (.refl m)
  | step place _ ih => exact hD.trans (hD.probed place) ih

namespace Obeys

/-- An event whose entry the discipline allows in this context. -/
theorem note {i : Option ScopeId} {e : Event}
    (he : ∀ m, m.context = c → D.keeps i m (m.after e)) : D.Obeys c i (Eval.note e) :=
  ⟨fun m hm => ⟨rfl, he m hm⟩⟩

/-- A change that leaves the context alone. -/
theorem change {i : Option ScopeId} {f : Machine → Machine}
    (hc : ∀ m, (f m).context = m.context) (hf : ∀ m, D.keeps i m (f m)) :
    D.Obeys c i (Eval.change f) :=
  ⟨fun m _ => ⟨hc m, hf m⟩⟩

end Obeys

/-! ### Finding and running a file -/

section Lawful

variable (hD : D.Lawful)
include hD

theorem obeys_resolveImport {loc : Location} {path name : String}
    (hs : D.fits c (.load loc path name)) :
    D.Obeys c none (Eval.resolveImport path loc) := by
  refine ⟨fun m hm => ?_⟩
  subst hm
  obtain ⟨r, m₁, h, hr⟩ := Eval.resolveImport_spec path loc m
  have hplaces : m₁.Sought (m₁.host.paths.importPlaces m₁.context.file path) r.tried := by
    rw [h.probes.paths, h.probes.context]
    exact h.sought
  have hfits : D.fits m₁.context (.load loc path name) := by
    rw [h.probes.context]
    exact hs
  have hk : D.keeps none m (m₁.after (.sought loc path r.tried)) :=
    hD.trans (hD.probes h.probes) (hD.sought hfits hplaces)
  rw [hr]
  cases r.found <;> exact ⟨h.probes.context, hk⟩

/-- A file is run in a scope that is made for it. -/
theorem obeys_runFile {ev : Evaluator} (hev : D.Evaluates ev) (path : String) (loc : Location) :
    D.Obeys c none (Eval.runFile ev path loc) := by
  -- Reading, recording the text and parsing happen outside of any scope of the file.
  refine .andThen hD (.of_local hD (.of_ask _)) fun answer => ?_
  refine .andThen hD (.of_local hD (.of_orFail ..)) fun source => ?_
  refine .andThen hD (.change (fun _ => rfl) fun m => hD.sources _) fun _ => ?_
  split
  · exact .of_local hD (.of_raise _)
  · rename_i program hp
    refine .newChildOf_andThen hD fun id => .andThen hD ?_ fun _ => .of_local hD (.of_pure _)
    refine .inFile hD (.andThen hD ?_ fun flow => ?_)
    · exact obeys_runStatements (c := c.enterFile id path) hD hev (hD.program hp)
    · exact .of_local hD (.andThen (flow.local_atBoundary _) fun _ => .of_pure _)

end Lawful

/-! ### Disciplines that look away -/

/-- **Oblivious.** The discipline cares neither about what is recorded of imports nor about the
imports under way. Of the journal it may look at the places that imports tried. -/
structure Oblivious (D : Discipline) : Prop extends Lawful D where
  importing : ∀ (c : Context) (path : String), D.Moves none c (c.enterImport path)
  modules : ∀ {m : Machine} (modules : List (String × Value)),
    D.keeps none m { m with modules := modules }
  note : ∀ {m : Machine} {e : Event}, (∀ loc path tried, e ≠ .sought loc path tried) →
    D.keeps none m (m.after e)

variable (hD : D.Oblivious)
include hD

/-- Recording and ending an import write into the record and the journal alone. -/
theorem obeys_remember (key : String) (v : Value) : D.Obeys c none (Eval.remember key v) := by
  refine .andThen hD.toLawful (.change (fun _ => rfl) fun m => hD.modules _) fun _ => ?_
  exact .note fun _ _ => hD.note (by simp)

theorem obeys_give (key : String) (v : Value) : D.Obeys c none (Eval.give key v) :=
  .andThen hD.toLawful (.note fun _ _ => hD.note (by simp)) fun _ =>
    .of_local hD.toLawful (.of_pure v)

theorem obeys_inImport {α : Type} {path : String} {x : Eval α}
    (hx : D.Obeys (c.enterImport path) none x) : D.Obeys c none (Eval.inImport path x) := by
  have hin : D.Obeys c none (Eval.inContext (·.enterImport path) (·.leaveImport)
      (do Eval.note (.began path); x)) :=
    .inContext (hD.importing _ _) rfl
      (.andThen hD.toLawful (.note fun _ _ => hD.note (by simp)) fun _ => hx)
  refine ⟨fun m hm => ?_⟩
  have h := hin.ends m hm
  -- The import notes its end, whether it succeeded or failed.
  unfold Eval.inImport
  split
  · rename_i a m' e
    rw [e] at h
    exact ⟨h.1, hD.trans h.2 (hD.note (by simp))⟩
  · rename_i d m' e
    rw [e] at h
    exact ⟨h.1, hD.trans h.2 (hD.note (by simp))⟩
  · rename_i r m' e
    rw [e] at h
    exact h

variable {ev : Evaluator} (hev : D.Evaluates ev)
include hev

theorem obeys_runModule (path : String) (loc : Location) :
    D.Obeys c none (Eval.runModule ev path loc) := by
  have hL := hD.toLawful
  refine .andThen hL (obeys_runFile hL hev path loc) fun _ => ?_
  refine .andThen hL (.note fun _ _ => hD.note (by simp)) fun _ => ?_
  exact .of_local hL (.andThen (.of_look _) fun entries => Eval.local_newObject entries)

theorem obeys_importResolved (resolved : String) (loc : Location) :
    D.Obeys c none (Eval.importResolved ev resolved loc) := by
  have hL := hD.toLawful
  refine .andThen hL (.of_local hL (.of_look _)) fun found => ?_
  cases found with
  | some v => exact obeys_give hD resolved v
  | none =>
    refine .andThen hL (.of_local hL (.of_look _)) fun loading => ?_
    -- An import that meets itself fails where it is.
    refine .ite (.of_local hL (.of_fail ..)) ?_
    refine .andThen hL (obeys_inImport hD (obeys_runModule hD hev resolved loc)) fun v => ?_
    exact .andThen hL (obeys_remember hD resolved v) fun _ => obeys_give hD resolved v

theorem obeys_importFile {loc : Location} {path name : String}
    (hs : D.fits c (.load loc path name)) :
    D.Obeys c none (Eval.importFile ev path loc) :=
  .andThen hD.toLawful (obeys_resolveImport hD.toLawful hs) fun resolved =>
    obeys_importResolved hD hev resolved loc

omit hev in
theorem obeys_importStandard (s : StandardModule) : D.Obeys c none (Eval.importStandard s) := by
  have hL := hD.toLawful
  refine .andThen hL (.of_local hL (.of_look _)) fun found => ?_
  cases found with
  | some v => exact obeys_give hD s.name v
  | none =>
    refine .andThen hL (.of_local hL (Eval.local_buildStandard s)) fun v => ?_
    exact .andThen hL (obeys_remember hD s.name v) fun _ => obeys_give hD s.name v

omit hev in
/-- **Imports.** An oblivious discipline holds of the import of a module. -/
theorem Oblivious.imports : D.Imports := by
  intro ev c loc path name hev hs
  unfold Eval.importModule
  split
  · exact obeys_importStandard hD _
  · exact obeys_importFile hD hev hs

end ScriptLang.Discipline
