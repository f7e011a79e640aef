import ScriptLang.Proofs.JumpFate

/-!
# Programs whose jumps have loops

A jump means a loop around it, in the same body: the innermost one, or the innermost one with its
label. That there is such a loop can be read off the program, and a program of which it is so never
fails for a jump without a loop, provided that it is so of the modules that it imports.

* `Program.Everywhere` says something of every statement of a program, given the loops around the
  statement. A function body starts without loops, wherever the function stands.
* `Program.Targeted` is the instance for jumps, and `Question.ImportsUntargeted` are the steps that
  would import something else.
* `Machine.never_stray` says that where there are no such steps there is no step that ends with the
  error of a stray jump.

The last one compares three runs. The run that halts before it imports a program that is not
targeted keeps to the regime, thus it is the run as long as it does not halt. By assumption it never
does, and a step of the regime cannot end with that error.
-/

namespace ScriptLang

/-! ### What holds everywhere in a program -/

mutual

/-- `Q` holds of the statements in the functions of an expression. -/
inductive Expr.Everywhere (Q : List (Option String) → Stmt → Prop) : Expr → Prop
  | intro {e : Expr} (parts : ∀ e' ∈ e.parts, Expr.Everywhere Q e')
    (functions : ∀ fn ∈ e.functions, FunctionDef.Everywhere Q fn) : Expr.Everywhere Q e

/-- `Q` holds of the statements in a function. Around its body there are no loops. -/
inductive FunctionDef.Everywhere (Q : List (Option String) → Stmt → Prop) : FunctionDef → Prop
  | intro {fn : FunctionDef} (defaults : ∀ e ∈ fn.defaults, Expr.Everywhere Q e)
    (body : ∀ s ∈ fn.body, Stmt.Everywhere Q [] s) : FunctionDef.Everywhere Q fn

/-- `Q` holds of a statement inside loops and of the statements in it. -/
inductive Stmt.Everywhere (Q : List (Option String) → Stmt → Prop) :
    List (Option String) → Stmt → Prop
  | intro {nest : List (Option String)} {s : Stmt} (here : Q nest s)
    (exprs : ∀ e ∈ s.exprs, Expr.Everywhere Q e)
    (functions : ∀ fn ∈ s.functions, FunctionDef.Everywhere Q fn)
    (inside : ∀ s' ∈ s.inside, Stmt.Everywhere Q (s.loop?.toList ++ nest) s') :
    Stmt.Everywhere Q nest s

end

/-- `Q` holds of every statement of a program. -/
def Program.Everywhere (Q : List (Option String) → Stmt → Prop) (p : Program) : Prop :=
  ∀ s ∈ p.statements, s.Everywhere Q []

/-- The jump that a statement makes has a loop that it means. -/
def Stmt.JumpsToLoop (nest : List (Option String)) (s : Stmt) : Prop :=
  ∀ j ∈ s.jumps, ∃ label ∈ nest, j.targets label

/-- **Targeted.** Every jump of a program has a loop that it means. -/
def Program.Targeted (p : Program) : Prop := p.Everywhere Stmt.JumpsToLoop

/-- The statement is no import. -/
def Stmt.RunsNoFile (_ : List (Option String)) (s : Stmt) : Prop :=
  ∀ loc path name, s ≠ .load loc path name

/-- An import of a program that is not targeted. -/
def Question.ImportsUntargeted (q : Question) (m : Machine) : Prop :=
  ∃ loc path name p, q = .stmt (.load loc path name) ∧ m.imported? path loc = some p ∧ ¬ p.Targeted

/-- A step that ends with the error of a stray jump. -/
def Question.RaisesStray (n : Nat) (q : Question) (m : Machine) : Prop :=
  ∃ d m', (Evaluator.ofBound n).answer q m = .error d m' ∧ d.IsStray

namespace Regime

variable {Q : List (Option String) → Stmt → Prop} {jumps : List (Option String) → Jump → Prop}
  {strays : Prop} {stops : Halt → Prop}

/-- Programs of which `Q` holds everywhere. -/
def everywhere (Q : List (Option String) → Stmt → Prop) (jumps : List (Option String) → Jump → Prop)
    (strays : Prop) (stops : Halt → Prop) : Regime where
  contexts _ := True
  functions := FunctionDef.Everywhere Q
  exprs := Expr.Everywhere Q
  stmts := Stmt.Everywhere Q
  jumps := jumps
  strays := strays
  stops := stops

theorem everywhere_lawful (hjump : ∀ {nest s j}, Q nest s → j ∈ s.jumps → jumps nest j)
    (hpass : ∀ {nest label} {j : Jump}, jumps (label :: nest) j → j.targets label = false →
      jumps nest j)
    (hboundary : ∀ {j}, jumps [] j → strays) : (everywhere Q jumps strays stops).Lawful where
  atScope _ h := h
  enterFile _ _ h := h
  enterFunction _ h := h
  enterImport _ h := h
  push h _ := h
  part | .intro parts _, h => parts _ h
  literal | .intro _ functions, h => functions _ h
  default | .intro defaults _, h => defaults _ h
  body | .intro _ body, h => body _ h
  expr | .intro _ exprs _ _, h => exprs _ h
  declared | .intro _ _ functions _, h => functions _ h
  inside | .intro _ _ _ inside, h => inside _ h
  jump | .intro here _ _ _, h => hjump here h
  pass := hpass
  boundary := hboundary

/-- Targeted programs, up to halts for one reason. -/
def targeted (r : Halt) : Regime :=
  everywhere Stmt.JumpsToLoop (fun nest j => ∃ label ∈ nest, j.targets label) False (· = r)

theorem targeted_lawful (r : Halt) : (targeted r).Lawful := by
  refine everywhere_lawful (fun hs hj => hs _ hj) ?_ ?_
  · rintro nest label j ⟨l, hl, hj⟩ hlabel
    rcases List.mem_cons.mp hl with rfl | hl
    · exact absurd hj (by simp [hlabel])
    · exact ⟨l, hl, hj⟩
  · rintro j ⟨l, hl, -⟩
    cases hl

variable {W : Nat → Question → Machine → Prop} {r : Halt}

theorem targeted_imports {loc : Location} {path name : String} {m : Machine} {p : Program}
    (h : ¬ Question.ImportsUntargeted (.stmt (.load loc path name)) m)
    (hp : m.imported? path loc = some p) : ∀ s ∈ p.statements, (targeted r).stmts [] s := by
  by_contra hnot
  exact h ⟨loc, path, name, p, rfl, hp, hnot⟩

/-- A run that halts before it imports what is not targeted, and one that is not watched. -/
theorem targeted_watches (r : Halt) :
    (targeted r).Watches (fun _ => Question.ImportsUntargeted) (fun _ _ _ => False) r where
  stops _ := rfl
  imports _ _ := targeted_imports
  covers _ _ _ h := h.elim

/-- By the time of the error of a stray jump that run has halted. -/
theorem targeted_watches_stray (r : Halt) :
    (targeted r).Watches (fun _ => Question.ImportsUntargeted) Question.RaisesStray r where
  stops _ := rfl
  imports _ _ := targeted_imports
  covers {n q m} hc hm hq h := by
    obtain ⟨d, m', he, hd⟩ := h
    have hev := alike_watching (targeted_lawful r) (targeted_watches r) r n
    rw [Evaluator.watching_nothing] at hev
    obtain ⟨post, hmeets⟩ := hev.meets_answer hc hm hq
    rw [he] at hmeets
    generalize (Evaluator.watching _ r n).answer q m = o at hmeets ⊢
    cases hmeets with
    | error _ _ hraise => exact absurd hd (hraise.resolve_left id)
    | stop hr => exact ⟨_, _, hr, rfl⟩

end Regime

/-! ### Runs -/

namespace Machine

/-- **No stray jumps.** A targeted program that imports only targeted ones takes no step that ends
with the error of a stray jump, and does not end with it itself. -/
theorem never_stray {m : Machine} (hm : Among (FunctionDef.Everywhere Stmt.JumpsToLoop) m)
    {p : Program} (hp : p.Targeted) (file : String)
    (himports : m.Never (fun _ => Question.ImportsUntargeted) p file) :
    m.Never Question.RaisesStray p file ∧
    ∀ d m', interpret p file m = .error d m' → ¬ d.IsStray := by
  -- The run is compared with itself under a watch that halts before a stray jump.
  have hmeets (r r' : Halt) : (Regime.targeted r).Meets m.context
      (Among (FunctionDef.Everywhere Stmt.JumpsToLoop)) (interpret p file m)
      (interpretOver (Evaluator.watching Question.RaisesStray r' Evaluator.height) p file m) := by
    have hev := Regime.alike_watching (Regime.targeted_lawful r)
      (Regime.targeted_watches_stray r) r' Evaluator.height
    have h := Regime.meets_interpretOver (Regime.targeted_lawful r) hev hp file trivial hm
    rwa [himports r] at h
  obtain ⟨r, hr⟩ := (interpret p file m).exists_ne_halt
  refine ⟨fun r' => (hmeets r r').eq ?_, fun d m' he => ?_⟩
  · rintro r₁ m₁ h rfl
    exact hr m₁ h
  · have h := hmeets r r
    rw [he] at h
    exact h.raises.resolve_left id

/-- A program without imports imports nothing else. -/
theorem never_imports {m : Machine} (hm : Among (FunctionDef.Everywhere Stmt.RunsNoFile) m)
    {p : Program} (hp : p.Everywhere Stmt.RunsNoFile) (file : String) :
    m.Never (fun _ => Question.ImportsUntargeted) p file := by
  have hlawful : (Regime.everywhere Stmt.RunsNoFile (fun _ _ => True) True fun _ => False).Lawful :=
    Regime.everywhere_lawful (fun _ _ => trivial) (fun _ _ => trivial) fun _ => trivial
  have hno {nest : List (Option String)} {loc : Location} {path name : String}
      (h : Stmt.Everywhere Stmt.RunsNoFile nest (.load loc path name)) : False := by
    obtain ⟨here, _, _, _⟩ := h
    exact here loc path name rfl
  refine Regime.never hlawful (fun _ => id) (fun _ h => (hno h).elim) ?_ hp file trivial hm
  rintro n q m₁ - - hq ⟨loc, path, name, p, rfl, -, -⟩
  obtain ⟨nest, hs⟩ := hq
  exact hno hs

end Machine

/-! ### Jumps and their loops -/

section Jumps

open Evaluator

/-- **Jumps and their loops.** Where the jumps of a program have loops, and those of the programs
that it imports, no step fails for a jump without a loop, on any host. A jump passes through
everything up to the loop that it means: the innermost one, or the innermost one with its label.
There a break ends the loop, and a continue starts another of its rounds. -/
theorem jumps_find_their_loops (setup : Machine.Setup) {p : Program} (hp : p.Targeted)
    (file : String)
    (himports : (Machine.initial setup).Never (fun _ => Question.ImportsUntargeted) p file) :
    (Machine.initial setup).Never Question.RaisesStray p file ∧
    (∀ d m, Machine.interpret p file (Machine.initial setup) = .error d m → ¬ d.IsStray) ∧
    (∀ n k s m m' loc label, Reaches ⟨label, loc⟩ n s m (k + 1) (.breakTo loc label) m' →
      (ofBound n).stmt s m = .ok (.breakTo ⟨label, loc⟩) (m'.inContext m.context)) ∧
    (∀ n k s m m' loc label, Reaches ⟨label, loc⟩ n s m (k + 1) (.continueTo loc label) m' →
      (ofBound n).stmt s m = .ok (.continueTo ⟨label, loc⟩) (m'.inContext m.context)) ∧
    (∀ n k s m m' loc label, Catches ⟨label, loc⟩ n s m (k + 1) (.breakTo loc label) m' →
      ∃ last, (ofBound n).stmt s m = .ok (.normal last) (m'.inContext m.context)) ∧
    (∀ n k s m m' loc label, Catches ⟨label, loc⟩ (n + 1) s m (k + 1) (.continueTo loc label) m' →
      ∃ x, s.NextRounds (ofBound n) x ∧
        (ofBound (n + 1)).stmt s m = x (m'.inContext m.context)) := by
  have hbreak (k : Nat) (m : Machine) (loc : Location) (label : Option String) :
      (ofBound (k + 1)).stmt (.breakTo loc label) m = .ok (.breakTo ⟨label, loc⟩) m := by
    rw [ofBound_succ]
    rfl
  have hcontinue (k : Nat) (m : Machine) (loc : Location) (label : Option String) :
      (ofBound (k + 1)).stmt (.continueTo loc label) m = .ok (.continueTo ⟨label, loc⟩) m := by
    rw [ofBound_succ]
    rfl
  obtain ⟨hnever, hend⟩ := Machine.never_stray (Machine.among_initial _ setup) hp file himports
  refine ⟨hnever, hend, ?_, ?_, ?_, ?_⟩
  · exact fun n k s m m' loc label h => h.passes (hbreak k m' loc label) rfl
  · exact fun n k s m m' loc label h => h.passes (hcontinue k m' loc label) rfl
  · exact fun n k s m m' loc label h => h.leaves (hbreak k m' loc label)
  · exact fun n k s m m' loc label h => h.goesOn (hcontinue k m' loc label)

end Jumps

/-- A loop in a loop, where the inner one leaves the outer one. -/
def leavingOuter : Stmt :=
  .labeled default "outer" (.loop default [.loop default [.breakTo default (some "outer")]])

/-- The machine in a new block of the current scope. -/
def Machine.inNewBlock (m : Machine) : Machine :=
  { m with
    scopes := (m.scopes.child m.context.scope .block).2
    context := m.context.atScope m.scopes.table.size }

/-- The first statement of a round runs in its block. -/
theorem Eval.rounds_halt {ev : Evaluator} {s : Stmt} {m : Machine} {r : Halt}
    (hs : hoist [s] = pure ()) (h : ev.stmt s m.inNewBlock = .halt r m.inNewBlock)
    (label : Option String) (n : Nat) (last : Value) :
    rounds ev none [s] label (n + 1) last m = .halt r m.inNewBlock := by
  have hrun : runStatements ev [s] m.inNewBlock = .halt r m.inNewBlock := by
    unfold runStatements
    rw [hs]
    change andThen (ev.stmt s) _ _ = _
    unfold andThen
    rw [h]
  have hblock : inBlock (runStatements ev [s]) m = leaving m.context
      (runStatements ev [s] m.inNewBlock) := inScope_eq ..
  change andThen (inBlock (runStatements ev [s])) _ m = _
  unfold andThen
  rw [hblock, hrun]
  rfl

theorem jumps_find_their_loops_outer :
    (Machine.initial {}).Never Question.RaisesStray ⟨[leavingOuter], default⟩ "main.mimo" ∧
    Evaluator.Catches ⟨some "outer", default⟩ 4 leavingOuter {} 2
      (.breakTo default (some "outer")) (Machine.inNewBlock (.inNewBlock {})) ∧
    ∃ last, (Evaluator.ofBound 4).stmt leavingOuter {} =
      .ok (.normal last) ((Machine.inNewBlock (.inNewBlock {})).inContext {}) := by
  have hparts {Q : List (Option String) → Stmt → Prop} (h₀ : Q [] leavingOuter)
      (h₁ : Q [some "outer"] (.loop default [.breakTo default (some "outer")]))
      (h₂ : Q [none, some "outer"] (.breakTo default (some "outer"))) :
      (Program.mk [leavingOuter] default).Everywhere Q := by
    intro s hs
    obtain rfl := List.mem_singleton.mp hs
    refine .intro h₀ (by rintro _ ⟨⟩) (by rintro _ ⟨⟩) fun s hs => ?_
    obtain rfl := List.mem_singleton.mp hs
    refine .intro h₁ (by rintro _ ⟨⟩) (by rintro _ ⟨⟩) fun s hs => ?_
    obtain rfl := List.mem_singleton.mp hs
    exact .intro h₂ (by rintro _ ⟨⟩) (by rintro _ ⟨⟩) (by rintro _ ⟨⟩)
  have htargeted : (Program.mk [leavingOuter] default).Targeted :=
    hparts (by rintro _ ⟨⟩) (by rintro _ ⟨⟩) (by simp [Stmt.JumpsToLoop, Stmt.jumps, Jump.targets])
  have hloads : (Program.mk [leavingOuter] default).Everywhere Stmt.RunsNoFile :=
    hparts (by rintro _ _ _ ⟨⟩) (by rintro _ _ _ ⟨⟩) (by rintro _ _ _ ⟨⟩)
  have h := jumps_find_their_loops {} htargeted "main.mimo"
    (Machine.never_imports (Machine.among_initial _ _) hloads _)
  -- Each of the two loops comes to its first statement in a block of its own.
  have hhalt {ev : Evaluator} (s : Stmt) (m : Machine) (r : Halt) :
      (ev.haltingAt s m r).stmt s m = .halt r m :=
    Eval.haltingIn_of (P := fun m' => s = s ∧ m' = m) ⟨rfl, rfl⟩
  have houter : (Evaluator.ofBound 3).Runs leavingOuter {}
      (.loop default [.breakTo default (some "outer")]) (Machine.inNewBlock {}) :=
    fun r => Eval.rounds_halt rfl (hhalt _ _ r) ..
  have hinner : (Evaluator.ofBound 2).Runs (.loop default [.breakTo default (some "outer")])
      (Machine.inNewBlock {}) (.breakTo default (some "outer"))
      (Machine.inNewBlock (.inNewBlock {})) :=
    fun r => Eval.rounds_halt rfl (hhalt _ _ r) ..
  have hcatches := Evaluator.Catches.intro (j := ⟨some "outer", default⟩) rfl rfl
    List.mem_cons_self houter (.step List.mem_cons_self hinner (by rintro _ ⟨⟩; rfl) .refl)
  exact ⟨h.1, hcatches, h.2.2.2.2.1 _ _ _ _ _ _ _ hcatches⟩

end ScriptLang
