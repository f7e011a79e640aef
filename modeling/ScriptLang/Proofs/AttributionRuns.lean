import ScriptLang.Proofs.AttributionStatement
import ScriptLang.Proofs.RegimeRuns

/-!
# Runs account for what they do

Imports read files, which is where an attribution has a say: it is about the runs in which every
file has a text that it lets be read as that file.

* `Machine.fetched?` is the file that an import reads in a machine, with its text.
* `Attribution.ends_importModule` — imports, where that text may be read.
* `Attribution.evaluates_watching` — evaluators at every depth, watched for imports of other texts,
  by induction on the depth.
* `Attribution.escapes_interpretOver` — whole programs: what is known of an error that escapes.
-/

namespace ScriptLang

/-- The file that an import reads, with its text. There is none where it gives what is recorded, and
none where it fails before anything is read. -/
def Machine.fetched? (m : Machine) (path : String) (loc : Location) : Option (String × String) :=
  match StandardModule.ofName? path, Eval.resolveImport path loc m with
  | none, .ok place m' =>
    if m'.known? place = none ∧ place ∉ m'.context.loading then
      (m'.host.read place).toOption.map fun text => (place, text)
    else none
  | _, _ => none

namespace Machine

/-- What is on record changes where the import of a file begins. -/
theorem loaded_after {m : Machine} {e : Event} (h : e.began? = none) :
    (m.after e).loaded = m.loaded := by
  simp [loaded, h]
  rfl

theorem loaded_importing (m : Machine) (path : String) :
    (m.importing path).loaded = m.loaded.begin path := by
  simp [loaded, importing, Event.began?]
  rfl

theorem loaded_afterImport (m : Machine) (path : String) :
    (m.afterImport path).loaded = m.loaded := loaded_after rfl

theorem completed_error {α : Type} {x : Eval α} {m m' : Machine} {d : Diagnostic}
    (h : completed x m = .error d m') : ∃ d₀, x m = .error d₀ m' ∧ d = m'.complete d₀ := by
  unfold completed at h
  cases e : x m with
  | error d₀ m₁ =>
    rw [e] at h
    cases h
    exact ⟨d₀, rfl, rfl⟩
  | ok a m₁ => rw [e] at h; cases h
  | halt r m₁ => rw [e] at h; cases h

/-- What a machine completes an error with: the active calls, and a quotation. -/
theorem complete_eq (m : Machine) (d : Diagnostic) :
    ∃ snippet, m.complete d = { m.context.calls.attach d with snippet := snippet } := by
  unfold complete
  dsimp only
  split
  · exact ⟨_, rfl⟩
  · split <;> exact ⟨_, rfl⟩

@[simp] theorem category_complete (m : Machine) (d : Diagnostic) :
    (m.complete d).category = d.category := by
  obtain ⟨snippet, h⟩ := m.complete_eq d
  rw [h]
  exact CallStack.category_attach ..

@[simp] theorem code_complete (m : Machine) (d : Diagnostic) : (m.complete d).code = d.code := by
  obtain ⟨snippet, h⟩ := m.complete_eq d
  rw [h]
  exact CallStack.code_attach ..

@[simp] theorem location_complete (m : Machine) (d : Diagnostic) :
    (m.complete d).location = d.location := by
  obtain ⟨snippet, h⟩ := m.complete_eq d
  rw [h]
  exact CallStack.location_attach ..

theorem Probes.loaded {m m' : Machine} (h : m.Probes m') : m'.loaded = m.loaded := by
  induction h with
  | refl m => rfl
  | step path _ ih => exact ih.trans (loaded_after rfl)

end Machine

namespace Eval

variable {Q : Location → Prop}

theorem raisesAt_note {e : Event} (h : e.began? = none) : RaisesAt Q (note e) :=
  ⟨fun _ => rfl, fun _ => Machine.loaded_after h, by rintro _ _ _ ⟨⟩⟩

theorem raisesAt_give (key : String) (v : Value) : RaisesAt Q (give key v) :=
  .andThen (raisesAt_note rfl) fun _ => .of_pure v

theorem raisesAt_remember (key : String) (v : Value) : RaisesAt Q (remember key v) :=
  .andThen ⟨fun _ => rfl, fun _ => rfl, by rintro _ _ _ ⟨⟩⟩ fun _ => raisesAt_note rfl

theorem raisesAt_importStandard (s : StandardModule) : RaisesAt Q (importStandard s) := by
  refine .andThen (.of_total fun _ => .of_look _) fun found => ?_
  cases found with
  | some v => exact raisesAt_give ..
  | none =>
    refine .andThen (.of_total fun _ => confined_buildStandard s) fun v => ?_
    exact .andThen (raisesAt_remember ..) fun _ => raisesAt_give ..

end Eval

namespace Attribution

open Eval

variable {A : Attribution} {ev : Evaluator} {m : Machine}

/-! ### Imports -/

section Imports

variable (hev : A.Evaluates ev)
include hev

/-- A file, in a machine whose host is about to give a text that may be read. -/
theorem ends_runFile {path : String} {loc : Location} (hloc : A.places m.loaded loc)
    (hm : A.Holds m.loaded m)
    (hf : ∀ text, m.host.read path = .ok text → A.reads m.loaded path text) :
    A.Ends m.context m.loaded (fun _ _ => True) (runFile ev path loc m) := by
  cases hr : m.host.read path with
  | error e =>
    rw [Machine.runFile_unreadable ev loc hr]
    exact Accounts.of_fail hloc { m with host := m.host.asked } rfl rfl hm
  | ok text =>
    rw [Machine.runFile_reading ev loc hr]
    -- The text is on record before it is read as a program.
    have hreads : A.reads m.loaded path text := hf text hr
    have hS : A.Leads m.loaded (m.reading path text).loaded := .add .refl hreads
    have hm' : A.Holds (m.reading path text).loaded (m.reading path text) := hm.grow hS
    unfold runText
    cases hp : Program.ofSource text path with
    | error d =>
      obtain ⟨hcategory, hstack⟩ := Program.written_of_ofSource hp
      exact .error rfl hS hm' ⟨.written hcategory hstack, fun h => absurd h hcategory⟩
    | ok p =>
      have hlocated : p.Located (A.places (m.reading path text).loaded) := A.program hreads hp
      refine .after hS ?_
      have h : A.Accounts m.context (m.reading path text).loaded (fun _ _ => True)
          (do
            let id ← newChildOf Scopes.root .moduleRoot
            inFile id path do
              let _ ← (← runStatements ev p.statements).atBoundary fun v => v
            return (p, id)) := by
        refine .tame_andThen (tame_newChildOf ..) (.newChildOf ..) fun id _ => ?_
        refine .andThen (p := fun _ _ => True) (.inFile ?_) fun _ _ _ => .of_pure trivial
        refine (accounts_runStatements hev hlocated.statements).andThen fun _ flow hflow => ?_
        exact (accounts_atBoundary (fun _ h => h) hflow).andThen fun _ _ _ => .of_pure trivial
      exact h _ rfl rfl hm'

/-- The import of a file begins and ends one level of imports. -/
theorem ends_inImport {path : String} {loc : Location} (hloc : A.places m.loaded loc)
    (hm : A.Holds m.loaded m)
    (hf : ∀ text, m.host.read path = .ok text → A.reads (m.loaded.begin path) path text) :
    A.Ends m.context m.loaded A.Holds (inImport path (runModule ev path loc) m) := by
  have hloaded := m.loaded_importing path
  have hS : A.Leads m.loaded (m.importing path).loaded := hloaded ▸ .begin path .refl
  have hm' : A.Holds (m.importing path).loaded (m.importing path) := hm.grow hS
  have hrun : A.Ends (m.importing path).context (m.importing path).loaded A.Holds
      (runModule ev path loc (m.importing path)) := by
    refine (ends_runFile hev (hS.places hloc) hm' (hloaded ▸ hf)).andThen fun r m₁ hc _ hm₁ _ => ?_
    have h : Tame (FunctionDef.Located (A.places m₁.loaded))
        (do
          note (.completed path)
          let entries ← look fun m => exportsOf r.1 m.scopes r.2
          newObject entries) := by
      refine .andThen (.of_note _) fun _ _ => ?_
      refine .andThen (.of_look fun m hm => Regime.among_exportsOf r.1 hm.scopes r.2)
        fun es hes => ?_
      exact tame_newObject hes
    refine .of_tame h ?_ hc rfl hm₁
    exact .andThen (raisesAt_note rfl) fun _ =>
      .andThen (.of_total fun _ => .of_look _) fun es => .of_total fun _ => confined_newObject es
  -- Leaving the import takes the path back that entering it put in front.
  have hback {m' : Machine} (h : m'.context = (m.importing path).context) :
      (m'.afterImport path).context = m.context := by
    change m'.context.leaveImport = _
    rw [h]
    rfl
  have hrest {m' : Machine} := m'.loaded_afterImport path
  rw [Machine.inImport_eq]
  generalize runModule ev path loc (m.importing path) = o at hrun
  cases hrun with
  | ok hc hS' hm' ha =>
    exact .ok (hback hc) (hrest.symm ▸ hS.trans hS') (hrest.symm ▸ hm') (hrest.symm ▸ ha)
  | error hc hS' hm' hd =>
    exact .error (hback hc) (hrest.symm ▸ hS.trans hS') (hrest.symm ▸ hm')
      (hrest.symm ▸ ⟨hd.trace, hd.place⟩)
  | halt => exact .halt

/-- **Imports.** -/
theorem ends_importModule {path : String} {loc : Location} (hloc : A.places m.loaded loc)
    (hm : A.Holds m.loaded m)
    (hf : ∀ file text, m.fetched? path loc = some (file, text) →
      A.reads (m.loaded.begin file) file text) :
    A.Ends m.context m.loaded A.Holds (importModule ev path loc m) := by
  unfold Machine.fetched? at hf
  unfold importModule
  cases hs : StandardModule.ofName? path with
  | some s =>
    exact .of_tame (Regime.tame_importStandard s) (raisesAt_importStandard s) rfl rfl hm
  | none =>
    -- The search asks the host and is noted, but nothing has been read after it.
    obtain ⟨r, m₁, h, hr⟩ := resolveImport_spec path loc m
    have hc₁ : m₁.context = m.context := h.probes.context
    let m₂ := m₁.after (.sought loc path r.tried)
    have hloaded : m₂.loaded = m.loaded := (Machine.loaded_after rfl).trans h.probes.loaded
    have hm₂ : A.Holds m₂.loaded m₂ := hloaded.symm ▸ h.probes.among hm
    change A.Ends _ _ _ (andThen (resolveImport path loc) _ m)
    unfold andThen
    rw [hs, hr] at hf
    rw [hr]
    rw [← hloaded] at hloc hf ⊢
    rw [← hc₁]
    cases hfound : r.found with
    | none => exact Accounts.of_fail hloc m₂ rfl rfl hm₂
    | some place =>
      rw [hfound] at hf
      change A.Ends m₂.context _ _ (importResolved ev place loc m₂)
      rw [Machine.importResolved_eq]
      -- A file that is on record is not read again, and one that is loading is refused.
      cases hk : m₂.known? place with
      | some v =>
        have hv : A.Holds m₂.loaded v := (hm₂.modules _ (Machine.mem_of_known hk)).2
        exact .of_tame (m := m₂) (Regime.tame_give place hv) (raisesAt_give place v) rfl rfl hm₂
      | none =>
        dsimp only
        split
        · exact Accounts.of_fail hloc m₂ rfl rfl hm₂
        · rename_i hl
          have hfile : ∀ text, m₂.host.read place = .ok text →
              A.reads (m₂.loaded.begin place) place text := by
            intro text hread
            refine hf place text ?_
            dsimp only
            rw [if_pos ⟨hk, hl⟩, hread]
            rfl
          refine (ends_inImport hev hloc hm₂ hfile).andThen fun v m' hc' hS' hm' hv => ?_
          refine .of_tame ?_ ?_ hc' rfl hm'
          · exact .andThen (Regime.tame_remember place hv) fun _ _ => Regime.tame_give place hv
          · exact .andThen (raisesAt_remember ..) fun _ => raisesAt_give ..

/-- An import, and any other statement. -/
theorem ends_statement {s : Stmt} (hs : s.Located (A.places m.loaded)) (hm : A.Holds m.loaded m)
    (hf : ∀ loc path name, s = .load loc path name → ∀ file text,
      m.fetched? path loc = some (file, text) → A.reads (m.loaded.begin file) file text) :
    A.Ends m.context m.loaded A.Fits (statement ev s m) := by
  by_cases hload : ∃ loc path name, s = .load loc path name
  · obtain ⟨loc, path, name, rfl⟩ := hload
    have hloc : A.places m.loaded loc := hs.here
    refine (ends_importModule hev hloc hm (hf loc path name rfl)).andThen
      fun v m' hc' hS' hm' hv => ?_
    -- What was imported gets its name in the scope of the statement.
    have hname (id : ScopeId) : Tame (FunctionDef.Located (A.places m'.loaded))
        (alterScopes (fun t => t.planDefine id name v .const) (fun _ => .importNameTaken name)
          loc) :=
      tame_alterScopes (fun _ _ h => hv.planDefine h) fun _ => by rintro ⟨⟩
    have hending : A.Accounts m.context m'.loaded A.Fits
        (do
          let id ← scope
          alterScopes (fun t => t.planDefine id name v .const) (fun _ => .importNameTaken name) loc
          return .normal .null) :=
      .tame_andThen tame_scope (.of_total fun _ => confined_scope) fun id _ =>
        accounts_ending (hname id) (.alterScopes _ _ (hS'.places hloc)) among_null
    exact hending m' hc' rfl hm'
  · exact accounts_statement hev hs (fun loc path name h => hload ⟨loc, path, name, h⟩) m rfl rfl hm

end Imports

/-! ### Evaluators -/

section Watching

variable {W : Nat → Question → Machine → Prop} {r : Halt}

/-- One level of a watched evaluator. -/
theorem evaluates_halting {n : Nat} {ev : Evaluator}
    (hexpr : ∀ {c S e}, e.Located (A.places S) → A.Accounts c S A.Holds (ev.expr e))
    (hstmt : ∀ {m : Machine} {s}, s.Located (A.places m.loaded) → A.Holds m.loaded m →
      ¬ W n (.stmt s) m → A.Ends m.context m.loaded A.Fits (ev.stmt s m))
    (hcall : ∀ {c S f args loc name}, A.Holds S f → A.Holds S args → A.places S loc →
      A.Accounts c S A.Holds (ev.call f args loc name)) :
    A.Evaluates (ev.halting (W n) r) := by
  -- Where the watch strikes the computation halts, and nothing is claimed of it.
  have hhalting {α : Type} {c : Context} {S : Loaded} {p : Loaded → α → Prop} {x : Eval α}
      {Q : Machine → Prop} (hx : ∀ m, m.context = c → m.loaded = S → A.Holds S m → ¬ Q m →
        A.Ends c S p (x m)) : A.Accounts c S p (haltingIn Q r x) := by
    intro m hc hS hm
    by_cases h : Q m
    · rw [haltingIn_of h]
      exact .halt
    · rw [haltingIn_of_not h]
      exact hx m hc hS hm h
  refine ⟨fun he => hhalting ?_, fun hs => hhalting ?_, fun hf ha hloc => hhalting ?_⟩
  · exact fun m hc hS hm _ => hexpr he m hc hS hm
  · rintro m rfl rfl hm hw
    exact hstmt hs hm hw
  · exact fun m hc hS hm _ => hcall hf ha hloc m hc hS hm

/-- **Watched evaluators.** They account for what they do at every depth, if the watch is for
imports of texts that may not be read. -/
theorem evaluates_watching
    (hW : ∀ {n loc path name m file text}, ¬ W n (.stmt (.load loc path name)) m →
      m.fetched? path loc = some (file, text) → A.reads (m.loaded.begin file) file text) (n : Nat) :
    A.Evaluates (Evaluator.watching W r n) := by
  induction n with
  | zero =>
    exact evaluates_halting (fun _ => .of_halt) (fun _ _ _ => .halt) fun _ _ _ => .of_halt
  | succ n ih =>
    refine evaluates_halting (fun he => accounts_expression ih he) ?_
      fun hf ha hloc => accounts_callValue ih hf ha hloc _
    intro m s hs hm hw
    refine ends_statement ih hs hm ?_
    rintro loc path name rfl file text hfetched
    exact hW hw hfetched

end Watching

/-! ### Programs -/

/-- A program that runs as a file. -/
theorem accounts_program (hev : A.Evaluates ev) {c : Context} {S : Loaded} {p : Program}
    (hp : p.Located (A.places S)) (file : String) :
    A.Accounts c S A.Holds
      (inFile Scopes.root file do
        (← runStatements ev p.statements).atBoundary fun v => v) := by
  refine .inFile ((accounts_runStatements hev hp.statements).andThen fun _ flow hf => ?_)
  exact accounts_atBoundary (fun _ h => h) hf

/-- **Programs.** An error that a program ends with is one that left the outermost call, completed
by the machine that it was left in. -/
structure Escapes (A : Attribution) (p : Program) (m m' : Machine) (d₀ d : Diagnostic) : Prop where
  completed : d = m'.complete d₀
  context : m'.context = m.context
  explains : A.Explains m.context m'.loaded d₀
  /-- If there was room for the outermost call, the error shows it. -/
  shows : ∀ {calls}, m.context.calls.push ⟨Machine.rootName, p.location⟩ = .ok calls →
    d₀.category = .runtime → calls.Shows d₀

theorem escapes_interpretOver (hev : A.Evaluates ev) {p : Program}
    (hp : p.Located (A.places m.loaded)) (hm : A.Holds m.loaded m) {file : String} {m' : Machine}
    {d : Diagnostic} (he : Machine.interpretOver ev p file m = .error d m') :
    ∃ d₀, A.Escapes p m m' d₀ d := by
  obtain ⟨d₀, h₀, hd⟩ := Machine.completed_error he
  have hbody {c : Context} := accounts_program (c := c) hev hp file
  have hrun : A.Accounts m.context m.loaded A.Holds (inCall ⟨Machine.rootName, p.location⟩ _) :=
    .inCall hp.here fun _ _ => hbody
  have h := hrun m rfl rfl hm
  rw [h₀] at h
  cases h with
  | error hc _ _ hd₀ =>
    refine ⟨d₀, hd, hc, hd₀, fun hpush hr => ?_⟩
    exact shows_of_inCall hpush hbody rfl hm h₀ hr

end Attribution

end ScriptLang
