import ScriptLang.Proofs.LoaderRuns
import ScriptLang.Proofs.RegimeEvaluator

/-!
# Runs under a regime

An import runs a file that the regime has said nothing about, so a step that imports is the one kind
of step that has to be known in its machine.

* `Machine.imported?` is the program that an import would run in a machine. There is none where it
  gives what is recorded, and none where it fails before anything runs.
* `Regime.meets_importModule` — imports, where the regime allows the program that they run.
* `Regime.Watches` are the obligations on a pair of watches: the first one halts before every import
  of a program that the regime does not allow, and wherever the second one halts the first run has
  halted already.
* `Regime.alike_watching` — evaluators that are watched in such a way are alike, by induction on the
  depth. An evaluator that is not watched is one of them (`Evaluator.watching_nothing`).
* `Regime.meets_interpretOver` — so are the runs of a program.
-/

namespace ScriptLang

/-- The program that an import runs. -/
def Machine.imported? (m : Machine) (path : String) (loc : Location) : Option Program :=
  match StandardModule.ofName? path, Eval.resolveImport path loc m with
  | none, .ok place m' =>
    if m'.known? place = none ∧ place ∉ m'.context.loading then
      (m'.host.read place).toOption.bind fun source => (Program.ofSource source place).toOption
    else none
  | _, _ => none

@[simp] theorem Diagnostic.isStray_withSource (d : Diagnostic) (source : String) :
    (d.withSource source).IsStray ↔ d.IsStray := Iff.rfl

@[simp] theorem Machine.isStray_complete (m : Machine) (d : Diagnostic) :
    (m.complete d).IsStray ↔ d.IsStray := by
  unfold complete
  dsimp only
  split
  · simp
  · split <;> simp

theorem Machine.Probes.among {T : FunctionDef → Prop} {m m' : Machine} (h : m.Probes m')
    (hm : Among T m) : Among T m' := by
  induction h with
  | refl m => exact hm
  | step path _ ih => exact ih hm

namespace Machine

open Eval

/-! ### The machine that programs start on -/

theorem tame_installBuiltins {T : FunctionDef → Prop} (fs : List CoreFn) :
    Tame T (installBuiltins fs) := by
  induction fs with
  | nil => exact .of_pure trivial
  | cons f fs ih =>
    refine .andThen tame_newIdentity fun id _ => ?_
    exact .andThen (tame_defineIn (among_builtin ..)) fun _ _ => ih

theorem tame_install {T : FunctionDef → Prop} : Tame T install := by
  refine .andThen (tame_installBuiltins _) fun _ _ => ?_
  exact .andThen (tame_buildStandard _) fun v hv => tame_defineIn hv

/-- The library has no functions of a program. -/
theorem among_initial (T : FunctionDef → Prop) (setup : Setup) : Among T (initial setup) := by
  have hscopes (id : ScopeId) : Among T (Scopes.initial.get id).vars := by
    cases id <;> exact among_emptyMap
  have hm : Among T (bare setup) :=
    ⟨⟨fun _ => among_emptyArray, fun _ => among_emptyMap⟩, hscopes, among_nil⟩
  have h := tame_install.ends _ hm
  rw [initial_eq]
  cases e : install (bare setup) with
  | ok a m' => rw [e] at h; exact h.2.2
  | error d m' => rw [e] at h; exact h.2.2
  | halt r m' => rw [e] at h; exact h

end Machine

namespace Regime

open Eval

variable {P : Regime} {c : Context} {m : Machine}

/-! ### Imports -/

section Records

variable {T : FunctionDef → Prop}

theorem tame_cached? (key : String) : Tame T (cached? key) := by
  refine .of_look fun m hm v hv => ?_
  exact (hm.modules _ (Machine.mem_of_known hv)).2

theorem tame_give (key : String) {v : Value} (hv : Among T v) : Tame T (give key v) :=
  .andThen (.of_note _) fun _ _ => .of_pure hv

theorem tame_remember (key : String) {v : Value} (hv : Among T v) : Tame T (remember key v) := by
  refine .andThen ⟨fun m hm => ⟨rfl, trivial, hm.heap, hm.scopes, ?_⟩⟩ fun _ _ => .of_note _
  exact among_cons.mpr ⟨⟨trivial, hv⟩, hm.modules⟩

theorem tame_importStandard (s : StandardModule) : Tame T (importStandard s) := by
  refine .andThen (tame_cached? _) fun found hf => ?_
  cases found with
  | some v => exact tame_give _ (among_some.mp hf)
  | none =>
    refine .andThen (tame_buildStandard s) fun v hv => ?_
    exact .andThen (tame_remember _ hv) fun _ _ => tame_give _ hv

theorem among_exportsOf (p : Program) {t : Scopes} (ht : Among T t) (id : ScopeId) :
    Among T (exportsOf p t id) := by
  unfold exportsOf
  split
  · have h (names : List String) : Among T (exportedValues t id names) :=
      among_map.mpr fun n _ => ⟨trivial, (ht.lookup? n id).ofOption⟩
    exact (h _).ofList
  · exact (ht.bindings id).ofList

end Records

section Imports

variable (hP : P.Lawful) {ev ev' : Evaluator} (hev : P.Alike ev ev')
include hP hev

/-- A file, in a machine whose host is about to give a text that the regime allows. -/
theorem meets_runFile {path : String} (loc : Location) (hc : P.contexts m.context)
    (hm : Among P.functions m)
    (hf : ∀ source p, m.host.read path = .ok source → Program.ofSource source path = .ok p →
      ∀ s ∈ p.statements, P.stmts [] s) :
    P.Meets m.context (fun _ => True) (runFile ev path loc m) (runFile ev' path loc m) := by
  cases hr : m.host.read path with
  | error e =>
    rw [Machine.runFile_unreadable ev loc hr, Machine.runFile_unreadable ev' loc hr]
    exact .error rfl hm (.inr (by simpa using nofun))
  | ok source =>
    rw [Machine.runFile_reading ev loc hr, Machine.runFile_reading ev' loc hr]
    unfold runText
    cases hp : Program.ofSource source path with
    | error d => exact .error rfl hm (.inr (by simpa using Program.not_isStray_of_ofSource hp))
    | ok p =>
      refine Agrees.tame_andThen (tame_newChildOf ..) (fun id _ => ?_) _ rfl hm
      refine .andThen (p := fun _ => True) (.inFile ?_) fun _ _ => .of_pure trivial
      have hc' := hP.enterFile id path hc
      refine (agrees_runStatements hP hev hc' (hf source p hr hp)).andThen fun flow hflow => ?_
      exact (agrees_atBoundary hP (fun _ h => h) hflow).andThen fun _ _ => .of_pure trivial

/-- The import of a file begins and ends one level of imports. -/
theorem meets_inImport {path : String} {loc : Location} (hc : P.contexts m.context)
    (hm : Among P.functions m)
    (hf : ∀ source p, m.host.read path = .ok source → Program.ofSource source path = .ok p →
      ∀ s ∈ p.statements, P.stmts [] s) :
    P.Meets m.context (Among P.functions) (inImport path (runModule ev path loc) m)
      (inImport path (runModule ev' path loc) m) := by
  have hrun : P.Meets (m.importing path).context (Among P.functions)
      (runModule ev path loc (m.importing path)) (runModule ev' path loc (m.importing path)) := by
    refine (meets_runFile (m := m.importing path) hP hev loc (hP.enterImport path hc) hm hf).andThen
      fun r m' hc' hm' _ => ?_
    have h : Tame P.functions
        (do
          note (.completed path)
          let entries ← look fun m => exportsOf r.1 m.scopes r.2
          newObject entries) := by
      refine .andThen (.of_note _) fun _ _ => ?_
      refine .andThen (.of_look fun m hm => among_exportsOf r.1 hm.scopes r.2) fun es hes => ?_
      exact tame_newObject hes
    exact .of_tame h hc' hm'
  -- Leaving the import takes the path back that entering it put in front.
  have hback {m' : Machine} (h : m'.context = (m.importing path).context) :
      (m'.afterImport path).context = m.context := by
    change m'.context.leaveImport = _
    rw [h]
    rfl
  rw [Machine.inImport_eq, Machine.inImport_eq]
  generalize runModule ev path loc (m.importing path) = o at hrun
  generalize runModule ev' path loc (m.importing path) = o' at hrun
  cases hrun with
  | ok hc' hm' ha => exact .ok (hback hc') hm' ha
  | error hc' hm' hd => exact .error (hback hc') hm' hd
  | halt => exact .halt
  | stop hr => exact .stop hr

/-- **Imports.** -/
theorem meets_importModule {path : String} {loc : Location} (hc : P.contexts m.context)
    (hm : Among P.functions m)
    (hf : ∀ p, m.imported? path loc = some p → ∀ s ∈ p.statements, P.stmts [] s) :
    P.Meets m.context (Among P.functions) (importModule ev path loc m)
      (importModule ev' path loc m) := by
  unfold Machine.imported? at hf
  unfold importModule
  cases hs : StandardModule.ofName? path with
  | some s => exact .of_tame (tame_importStandard s) rfl hm
  | none =>
    -- The search probes the host, so it leaves a machine that differs in its journal only.
    obtain ⟨r, m₁, h, hr⟩ := resolveImport_spec path loc m
    have hc₁ : m₁.context = m.context := h.probes.context
    have hm₁ : Among P.functions m₁ := h.probes.among hm
    change P.Meets _ _ (andThen (resolveImport path loc) _ m)
      (andThen (resolveImport path loc) _ m)
    unfold andThen
    rw [hs, hr] at hf
    rw [hr]
    cases hfound : r.found with
    | none => exact .error hc₁ hm₁ (.inr (by simpa using nofun))
    | some place =>
      let m₂ := m₁.after (.sought loc path r.tried)
      rw [hfound] at hf
      change P.Meets _ _ (importResolved ev place loc m₂) (importResolved ev' place loc m₂)
      rw [Machine.importResolved_eq, Machine.importResolved_eq]
      rw [← hc₁] at hc ⊢
      cases hk : m₂.known? place with
      | some v =>
        -- A module that was imported before is given out again.
        have hv : Among P.functions v := (hm₁.modules _ (Machine.mem_of_known hk)).2
        exact .of_tame (m := m₂) (tame_give place hv) rfl hm₁
      | none =>
        dsimp only
        split
        · -- The file is being imported already.
          exact .error rfl hm₁ (.inr (by simpa using nofun))
        · -- The file is run, and the program in it is one that the regime allows.
          rename_i hl
          have hfile : ∀ source p, m₂.host.read place = .ok source →
              Program.ofSource source place = .ok p → ∀ s ∈ p.statements, P.stmts [] s := by
            intro source p hread hp
            refine hf p ?_
            dsimp only
            rw [if_pos ⟨hk, hl⟩, hread]
            simp [Except.toOption, hp]
          have h : P.Meets m₂.context (Among P.functions)
              (inImport place (runModule ev place loc) m₂)
              (inImport place (runModule ev' place loc) m₂) :=
            meets_inImport hP hev hc hm₁ hfile
          refine h.andThen fun v m' hc' hm' hv => ?_
          refine .of_tame ?_ hc' hm'
          exact .andThen (tame_remember place hv) fun _ _ => tame_give place hv

/-- An import, and any other statement. -/
theorem meets_statement {nest : List (Option String)} {s : Stmt} (hc : P.contexts m.context)
    (hm : Among P.functions m) (hs : P.stmts nest s)
    (hf : ∀ loc path name, s = .load loc path name → ∀ p, m.imported? path loc = some p →
      ∀ s ∈ p.statements, P.stmts [] s) :
    P.Meets m.context (P.Fits nest) (statement ev s m) (statement ev' s m) := by
  by_cases hload : ∃ loc path name, s = .load loc path name
  · obtain ⟨loc, path, name, rfl⟩ := hload
    refine (meets_importModule hP hev hc hm (hf loc path name rfl)).andThen
      fun v m' hc' hm' hv => ?_
    have hname (id : ScopeId) : Tame P.functions
        (alterScopes (fun t => t.planDefine id name v .const) (fun _ => .importNameTaken name)
          loc) :=
      tame_alterScopes (fun _ _ h => hv.planDefine h) fun _ => nofun
    exact Agrees.tame_andThen tame_scope (fun id _ => agrees_ending (hname id) among_null)
      m' hc' hm'
  · exact agrees_statement hP hev hc hs (fun loc path name h => hload ⟨loc, path, name, h⟩) m rfl hm

end Imports

/-! ### Watched evaluators -/

/-- What may be asked of an evaluator. -/
def Allows (P : Regime) : Question → Prop
  | .expr e => P.exprs e
  | .stmt s => ∃ nest, P.stmts nest s
  | .call f args _ _ => Among P.functions f ∧ Among P.functions args

theorem Alike.meets_answer {ev ev' : Evaluator} (h : P.Alike ev ev') (hc : P.contexts m.context)
    (hm : Among P.functions m) {q : Question} (hq : P.Allows q) :
    ∃ post, P.Meets m.context post (ev.answer q m) (ev'.answer q m) := by
  cases q with
  | expr e => exact ⟨_, h.expr hc hq m rfl hm⟩
  | stmt s =>
    obtain ⟨nest, hs⟩ := hq
    exact ⟨_, h.stmt hc hs m rfl hm⟩
  | call f args loc name => exact ⟨_, h.call hc hq.1 hq.2 m rfl hm⟩

/-- **Watches.** Two watches under which runs are alike. -/
structure Watches (P : Regime) (W W' : Nat → Question → Machine → Prop) (r : Halt) : Prop where
  stops : ∀ {n q m}, W n q m → P.stops r
  /-- The first watch leaves only those imports alone whose program the regime allows. -/
  imports : ∀ {n nest loc path name m p}, P.contexts m.context →
    P.stmts nest (.load loc path name) → ¬ W n (.stmt (.load loc path name)) m →
      m.imported? path loc = some p → ∀ s ∈ p.statements, P.stmts [] s
  /-- Where the second watch halts, the first run is halted. -/
  covers : ∀ {n q m}, P.contexts m.context → Among P.functions m → P.Allows q → W' n q m →
    ∃ r' m', P.stops r' ∧ (Evaluator.watching W r n).answer q m = .halt r' m'

section Watching

variable {W W' : Nat → Question → Machine → Prop} {r : Halt}

/-- One question under two watches. -/
theorem agrees_haltingIn {r' : Halt} {α : Type} {p : α → Prop} {Q Q' : Machine → Prop}
    {x x' : Eval α}
    (hr : ∀ m, Q m → P.stops r)
    (hx : ∀ m, m.context = c → Among P.functions m → ¬ Q m → P.Meets c p (x m) (x' m))
    (hc : ∀ m, m.context = c → Among P.functions m → Q' m →
      ∃ r₁ m₁, P.stops r₁ ∧ haltingIn Q r x m = .halt r₁ m₁) :
    P.Agrees c p (haltingIn Q r x) (haltingIn Q' r' x') := by
  intro m hm hmT
  -- Whether the first watch halts matters only where the second one does not.
  by_cases h' : Q' m
  · obtain ⟨r₁, m₁, hs, he⟩ := hc m hm hmT h'
    rw [he]
    exact .stop hs
  rw [haltingIn_of_not h']
  by_cases h : Q m
  · rw [haltingIn_of h]
    exact .stop (hr m h)
  · rw [haltingIn_of_not h]
    exact hx m hm hmT h

/-- One level of two watched evaluators. Of statements it is enough to compare those before which
the first one does not halt. -/
theorem Watches.alike_halting (hW : P.Watches W W' r) {r' : Halt} {n : Nat} {ev ev' : Evaluator}
    (hn : Evaluator.watching W r n = ev.halting (W n) r) (hb : ev'.bound = ev.bound)
    (hexpr : ∀ {c e}, P.contexts c → P.exprs e →
      P.Agrees c (Among P.functions) (ev.expr e) (ev'.expr e))
    (hstmt : ∀ {m nest s}, P.contexts m.context → Among P.functions m → P.stmts nest s →
      ¬ W n (.stmt s) m → P.Meets m.context (P.Fits nest) (ev.stmt s m) (ev'.stmt s m))
    (hcall : ∀ {c f args loc name}, P.contexts c → Among P.functions f → Among P.functions args →
      P.Agrees c (Among P.functions) (ev.call f args loc name) (ev'.call f args loc name)) :
    P.Alike (ev.halting (W n) r) (ev'.halting (W' n) r') := by
  have hcovers {c : Context} (hc : P.contexts c) (q : Question) (hq : P.Allows q) (m : Machine)
      (hm : m.context = c) (hmT : Among P.functions m) (h : W' n q m) :
      ∃ r₁ m₁, P.stops r₁ ∧ haltingIn (W n q) r (ev.answer q) m = .halt r₁ m₁ := by
    rw [← Evaluator.answer_halting, ← hn]
    exact hW.covers (hm ▸ hc) hmT hq h
  refine ⟨hb, fun hc he => ?_, fun hc hs => ?_, fun hc hf ha => ?_⟩
  · exact agrees_haltingIn (fun _ => hW.stops) (fun m hm hmT _ => hexpr hc he m hm hmT)
      (hcovers hc (.expr _) he)
  · exact agrees_haltingIn (fun _ => hW.stops) (fun m hm hmT hw => hm ▸ hstmt (hm ▸ hc) hmT hs hw)
      (hcovers hc (.stmt _) ⟨_, hs⟩)
  · exact agrees_haltingIn (fun _ => hW.stops) (fun m hm hmT _ => hcall hc hf ha m hm hmT)
      (hcovers hc (.call ..) ⟨hf, ha⟩)

/-- **Watched evaluators.** They are alike at every depth. -/
theorem alike_watching (hP : P.Lawful) (hW : P.Watches W W' r) (r' : Halt) (n : Nat) :
    P.Alike (Evaluator.watching W r n) (Evaluator.watching W' r' n) := by
  induction n with
  | zero =>
    exact hW.alike_halting rfl rfl (fun _ _ => .of_halt) (fun _ _ _ _ => .halt)
      fun _ _ _ => .of_halt
  | succ n ih =>
    refine hW.alike_halting rfl rfl (fun hc he => agrees_expression hP ih hc he) ?_
      fun hc hf ha => agrees_callValue hP ih hc hf ha _ _
    intro m nest s hc hmT hs hw
    refine meets_statement hP ih hc hmT hs ?_
    rintro loc path name rfl p hp
    exact hW.imports hc hs hw hp

end Watching

/-! ### Runs of programs -/

/-- **Runs.** The runs of a program that the regime allows are alike. -/
theorem meets_interpretOver (hP : P.Lawful) {ev ev' : Evaluator} (hev : P.Alike ev ev')
    {p : Program} (hp : ∀ s ∈ p.statements, P.stmts [] s) (file : String)
    (hc : P.contexts m.context) (hm : Among P.functions m) :
    P.Meets m.context (Among P.functions) (Machine.interpretOver ev p file m)
      (Machine.interpretOver ev' p file m) := by
  have hrun : P.Agrees m.context (Among P.functions)
      (inCall ⟨Machine.rootName, p.location⟩ <| inFile Scopes.root file do
        (← runStatements ev p.statements).atBoundary fun v => v)
      (inCall ⟨Machine.rootName, p.location⟩ <| inFile Scopes.root file do
        (← runStatements ev' p.statements).atBoundary fun v => v) := by
    refine .inCall fun calls hcalls => .inFile ?_
    have hc' := hP.enterFile Scopes.root file (hP.push hc hcalls)
    exact (agrees_runStatements hP hev hc' hp).andThen fun _ hf =>
      agrees_atBoundary hP (fun _ h => h) hf
  have h := hrun m rfl hm
  unfold Machine.interpretOver Machine.completed
  generalize inCall (α := Value) _ _ m = o at h
  generalize inCall (α := Value) _ _ m = o' at h
  cases h with
  | ok hc' hm' ha => exact .ok hc' hm' ha
  -- Completing an error makes no other error of it.
  | error hc' hm' hd => exact .error hc' hm' (by simpa [Raises] using hd)
  | halt => exact .halt
  | stop hr => exact .stop hr

/-- **Never.** Where nothing that the regime allows is watched, no step of a run is. -/
theorem never {W : Nat → Question → Machine → Prop} (hP : P.Lawful) (hstops : ∀ r, ¬ P.stops r)
    (himports : ∀ {nest loc path name} {m : Machine} {p}, P.contexts m.context →
      P.stmts nest (.load loc path name) → m.imported? path loc = some p →
        ∀ s ∈ p.statements, P.stmts [] s)
    (hW : ∀ {n q} {m : Machine}, P.contexts m.context → Among P.functions m → P.Allows q →
      ¬ W n q m)
    {p : Program} (hp : ∀ s ∈ p.statements, P.stmts [] s) (file : String)
    (hc : P.contexts m.context) (hm : Among P.functions m) : m.Never W p file := by
  intro r
  have hwatches : P.Watches (fun _ _ _ => False) W r :=
    ⟨fun h => h.elim, fun hc hs _ hp => himports hc hs hp, fun hc hm hq h => absurd h (hW hc hm hq)⟩
  have hev := alike_watching hP hwatches r Evaluator.height
  rw [Evaluator.watching_nothing] at hev
  exact (meets_interpretOver hP hev hp file hc hm).eq fun r _ _ => hstops r

/-! ### Any program -/

/-- Any program, in contexts of some kind. -/
def free (contexts : Context → Prop) : Regime where
  contexts := contexts
  functions _ := True
  exprs _ := True
  stmts _ _ := True
  jumps _ _ := True
  strays := True
  stops _ := False

theorem among_anyValue (v : Value) : Among (fun _ => True) v := by cases v <;> trivial

theorem among_any (m : Machine) : Among (fun _ => True) m :=
  ⟨⟨fun _ _ _ => among_anyValue _, fun _ _ _ => ⟨trivial, among_anyValue _⟩⟩,
    fun _ _ _ => ⟨trivial, among_anyValue _⟩, fun _ _ => ⟨trivial, among_anyValue _⟩⟩

theorem free_lawful {C : Context → Prop} (atScope : ∀ {c : Context} id, C c → C (c.atScope id))
    (enterFile : ∀ {c : Context} id file, C c → C (c.enterFile id file))
    (enterFunction : ∀ {c : Context} name, C c → C (c.enterFunction name))
    (enterImport : ∀ {c : Context} path, C c → C (c.enterImport path))
    (push : ∀ {c : Context} {frame calls}, C c → c.calls.push frame = .ok calls →
      C (c.withCalls calls)) : (free C).Lawful where
  atScope := atScope
  enterFile := enterFile
  enterFunction := enterFunction
  enterImport := enterImport
  push := push
  part _ _ := trivial
  literal _ _ := trivial
  default _ _ := trivial
  body _ _ := trivial
  expr _ _ := trivial
  declared _ _ := trivial
  inside _ _ := trivial
  jump _ _ := trivial
  pass _ _ := trivial
  boundary _ := trivial

/-- Any program in any context. -/
def any : Regime := free fun _ => True

theorem any_lawful : any.Lawful :=
  free_lawful (fun _ _ => trivial) (fun _ _ _ => trivial) (fun _ _ => trivial)
    (fun _ _ => trivial) fun _ _ => trivial

/-- An evaluator agrees with itself, so it gives every context back. -/
theorem any_alike (n : Nat) : any.Alike (.ofBound n) (.ofBound n) := by
  have hwatches : any.Watches (fun _ _ _ => False) (fun _ _ _ => False) .internal :=
    ⟨fun h => h.elim, fun _ _ _ _ _ _ => trivial, fun _ _ _ h => h.elim⟩
  have h := alike_watching any_lawful hwatches .internal n
  rwa [Evaluator.watching_nothing] at h

/-- Any program in any context, compared up to the halts for one reason. -/
def stopping (r : Halt) : Regime := { any with stops := (· = r) }

theorem stopping_lawful (r : Halt) : (stopping r).Lawful := { any_lawful with }

end Regime

/-- There is a reason for which an outcome is no halt. -/
theorem Outcome.exists_ne_halt {α : Type} (o : Outcome α) : ∃ r, ∀ m, o ≠ .halt r m := by
  cases o with
  | halt r m =>
    cases r with
    | internal => exact ⟨.unordered, fun _ h => by cases h⟩
    | _ => exact ⟨.internal, fun _ h => by cases h⟩
  | _ => exact ⟨.internal, fun _ h => by cases h⟩

/-- A run that never takes a step of some kind takes none of a narrower kind. -/
theorem Machine.Never.mono {W W' : Nat → Question → Machine → Prop} {m : Machine} {p : Program}
    {file : String} (h : m.Never W p file) (hW : ∀ {n q m}, W' n q m → W n q m) :
    m.Never W' p file := by
  intro r'
  obtain ⟨r, hr⟩ := (interpret p file m).exists_ne_halt
  have hhalts {n : Nat} {q : Question} {m : Machine} (hw : W' n q m) :
      (Evaluator.watching W r n).answer q m = .halt r m := by
    cases n <;>
      · rw [Evaluator.watching, Evaluator.answer_halting]
        exact Eval.haltingIn_of (hW hw)
  have hwatches : (Regime.stopping r).Watches W W' r :=
    ⟨fun _ => rfl, fun _ _ _ _ _ _ => trivial, fun {_ _ m} _ _ _ hw => ⟨r, m, rfl, hhalts hw⟩⟩
  have hmeets := Regime.meets_interpretOver (p := p) (m := m) (Regime.stopping_lawful r)
    (Regime.alike_watching (Regime.stopping_lawful r) hwatches r' Evaluator.height)
    (fun s _ => trivial) file trivial (Regime.among_any m)
  -- The run with the first watch is the run, which does not halt for this reason.
  rw [h r] at hmeets
  exact hmeets.eq fun r₁ m₁ e hr₁ => hr m₁ (hr₁ ▸ e)

end ScriptLang
