import ScriptLang.Proofs.Discipline
import ScriptLang.Proofs.ProvenanceLibrary
import ScriptLang.Proofs.StatementParts
import ScriptLang.Proofs.Steps

/-!
# Regimes

That a run never takes a step of some kind (`Machine.Never`) is said about two evaluators: one that
runs and one that is watched. As long as the run keeps to what it may do, the two give the same, and
what it may do is a regime.

* A `Regime` says in which contexts steps are taken, of which functions, expressions and statements
  they are about, which jumps a statement may end with, and whether a stray jump may be an error.
  `Regime.Lawful` are its obligations. Those about syntax say what parts inherit, those about
  contexts where parts run.
* `Regime.Meets` compares two ends of one computation: they are the same, and as the regime wants
  it, unless the first one is a halt for a reason that the regime stops at.
* `Regime.Agrees` is the judgement about two computations that start in one context. The rules below
  follow the ways of putting computations together; a tame computation agrees with itself.

The context is fixed in the judgement, as in `Discipline.Obeys`. A statement is judged inside a list
of loops, given by their labels, the innermost first: those that a jump out of it may mean.
-/

namespace ScriptLang

/-- What a run may do. -/
structure Regime where
  /-- Where steps are taken. -/
  contexts : Context → Prop
  /-- The functions that are called. -/
  functions : FunctionDef → Prop
  exprs : Expr → Prop
  /-- The statements that run inside loops. -/
  stmts : List (Option String) → Stmt → Prop
  /-- The jumps that leave statements inside loops. -/
  jumps : List (Option String) → Jump → Prop
  /-- A jump without a loop may be an error. -/
  strays : Prop
  /-- The halts at which the comparison ends. -/
  stops : Halt → Prop

namespace Regime

variable {α β : Type} {P : Regime} {c : Context} {m : Machine}

/-- **Lawful.** The obligations on a regime. -/
structure Lawful (P : Regime) : Prop where
  atScope : ∀ {c : Context} (id), P.contexts c → P.contexts (c.atScope id)
  enterFile : ∀ {c : Context} (id file), P.contexts c → P.contexts (c.enterFile id file)
  enterFunction : ∀ {c : Context} (name), P.contexts c → P.contexts (c.enterFunction name)
  enterImport : ∀ {c : Context} (path), P.contexts c → P.contexts (c.enterImport path)
  /-- Another call is under way, if there is room for it. -/
  push : ∀ {c : Context} {frame calls}, P.contexts c → c.calls.push frame = .ok calls →
    P.contexts (c.withCalls calls)
  part : ∀ {e e' : Expr}, P.exprs e → e' ∈ e.parts → P.exprs e'
  literal : ∀ {e : Expr} {fn}, P.exprs e → fn ∈ e.functions → P.functions fn
  default : ∀ {fn : FunctionDef} {e}, P.functions fn → e ∈ fn.defaults → P.exprs e
  /-- The body of a function is inside no loop. -/
  body : ∀ {fn : FunctionDef} {s}, P.functions fn → s ∈ fn.body → P.stmts [] s
  expr : ∀ {nest} {s : Stmt} {e}, P.stmts nest s → e ∈ s.exprs → P.exprs e
  declared : ∀ {nest} {s : Stmt} {fn}, P.stmts nest s → fn ∈ s.functions → P.functions fn
  inside : ∀ {nest} {s s' : Stmt}, P.stmts nest s → s' ∈ s.inside →
    P.stmts (s.loop?.toList ++ nest) s'
  jump : ∀ {nest} {s : Stmt} {j}, P.stmts nest s → j ∈ s.jumps → P.jumps nest j
  /-- A loop lets a jump pass that does not mean it. -/
  pass : ∀ {nest label} {j : Jump}, P.jumps (label :: nest) j → j.targets label = false →
    P.jumps nest j
  /-- A jump that leaves a function or a file. -/
  boundary : ∀ {j : Jump}, P.jumps [] j → P.strays

/-- What a statement inside loops may end with. -/
def Fits (P : Regime) (nest : List (Option String)) : Flow → Prop
  | .normal v | .giveBack v => Among P.functions v
  | .breakTo j | .continueTo j => P.jumps nest j

/-- An error that may be raised. -/
def Raises (P : Regime) (d : Diagnostic) : Prop := P.strays ∨ ¬ d.IsStray

/-- **Meets.** Two ends of a computation that started in the context `c`. -/
inductive Meets (P : Regime) (c : Context) (post : α → Prop) : Outcome α → Outcome α → Prop
  | ok {a m} (hc : m.context = c) (hm : Among P.functions m) (ha : post a) :
    Meets P c post (.ok a m) (.ok a m)
  | error {d m} (hc : m.context = c) (hm : Among P.functions m) (hd : P.Raises d) :
    Meets P c post (.error d m) (.error d m)
  | halt {r m} : Meets P c post (.halt r m) (.halt r m)
  | stop {r m o} (hr : P.stops r) : Meets P c post (.halt r m) o

/-- **Agrees.** From every machine in the context `c` whose functions are those of the regime, the
two computations come to the same. -/
def Agrees (P : Regime) (c : Context) (post : α → Prop) (x x' : Eval α) : Prop :=
  ∀ m, m.context = c → Among P.functions m → P.Meets c post (x m) (x' m)

/-- Two evaluators agree on all that the regime allows. -/
structure Alike (P : Regime) (ev ev' : Evaluator) : Prop where
  bound : ev'.bound = ev.bound
  expr : ∀ {c e}, P.contexts c → P.exprs e →
    P.Agrees c (Among P.functions) (ev.expr e) (ev'.expr e)
  stmt : ∀ {c nest s}, P.contexts c → P.stmts nest s →
    P.Agrees c (P.Fits nest) (ev.stmt s) (ev'.stmt s)
  call : ∀ {c f args loc name}, P.contexts c → Among P.functions f → Among P.functions args →
    P.Agrees c (Among P.functions) (ev.call f args loc name) (ev'.call f args loc name)

/-! ### Rules -/

section Rules

variable {p : α → Prop} {q : β → Prop} {x x' : Eval α} {f f' : α → Eval β}

theorem Meets.imp {q : α → Prop} {o o' : Outcome α} (h : P.Meets c p o o')
    (hpq : ∀ a, p a → q a) : P.Meets c q o o' := by
  cases h with
  | ok hc hm ha => exact .ok hc hm (hpq _ ha)
  | error hc hm hd => exact .error hc hm hd
  | halt => exact .halt
  | stop hr => exact .stop hr

/-- Unless the comparison ended, the two ends are the same. -/
theorem Meets.eq {o o' : Outcome α} (h : P.Meets c p o o')
    (hs : ∀ r m, o = .halt r m → ¬ P.stops r) : o' = o := by
  cases h with
  | stop hr => exact absurd hr (hs _ _ rfl)
  | _ => rfl

theorem Meets.context_eq {a : α} {o' : Outcome α} (h : P.Meets c p (.ok a m) o') :
    m.context = c := by
  cases h
  assumption

theorem Meets.context_eq_of_error {d : Diagnostic} {o' : Outcome α}
    (h : P.Meets c p (.error d m) o') : m.context = c := by
  cases h
  assumption

theorem Meets.raises {d : Diagnostic} {o' : Outcome α} (h : P.Meets c p (.error d m) o') :
    P.Raises d := by
  cases h
  assumption

/-- One computation after the other, in a given machine. -/
theorem Meets.andThen (h : P.Meets c p (x m) (x' m))
    (hf : ∀ a m', m'.context = c → Among P.functions m' → p a →
      P.Meets c q (f a m') (f' a m')) :
    P.Meets c q ((x >>= f) m) ((x' >>= f') m) := by
  change P.Meets c q (Eval.andThen x f m) (Eval.andThen x' f' m)
  unfold Eval.andThen
  generalize x m = o at h
  generalize x' m = o' at h
  cases h with
  | ok hc hm ha => exact hf _ _ hc hm ha
  | error hc hm hd => exact .error hc hm hd
  | halt => exact .halt
  | stop hr => exact .stop hr

/-- A tame computation in a given machine. -/
theorem Meets.of_tame [Carries α] (hx : Eval.Tame P.functions x) (hc : m.context = c)
    (hm : Among P.functions m) : P.Meets c (Among P.functions) (x m) (x m) := by
  have h := hx.ends m hm
  cases e : x m with
  | ok a m' => rw [e] at h; exact .ok (h.1.trans hc) h.2.2 h.2.1
  | error d m' => rw [e] at h; exact .error (h.1.trans hc) h.2.2 (.inr h.2.1)
  | halt r m' => exact .halt

namespace Agrees

theorem of_tame [Carries α] (hx : Eval.Tame P.functions x) :
    P.Agrees c (Among P.functions) x x := fun _ hc hm => .of_tame hx hc hm

theorem of_pure {a : α} (ha : p a) : P.Agrees c p (pure a) (pure a) :=
  fun _ hc hm => .ok hc hm ha

theorem of_raise {d : Diagnostic} (hd : P.Raises d) :
    P.Agrees c p (Eval.raise d) (Eval.raise d) := fun _ hc hm => .error hc hm hd

theorem of_fail {fault : RuntimeFault} {loc : Location} (hf : ¬ fault.IsStray) :
    P.Agrees c p (Eval.fail fault loc) (Eval.fail fault loc) :=
  of_raise (.inr (by simpa using hf))

theorem of_halt {r : Halt} : P.Agrees c p (Eval.halt r) (Eval.halt r) := fun _ _ _ => .halt

theorem andThen (hx : P.Agrees c p x x') (hf : ∀ a, p a → P.Agrees c q (f a) (f' a)) :
    P.Agrees c q (x >>= f) (x' >>= f') :=
  fun m hc hm => (hx m hc hm).andThen fun a m' hc' hm' ha => hf a ha m' hc' hm'

/-- What comes after a tame computation. -/
theorem tame_andThen [Carries α] (hx : Eval.Tame P.functions x)
    (hf : ∀ a, Among P.functions a → P.Agrees c q (f a) (f' a)) :
    P.Agrees c q (x >>= f) (x >>= f') :=
  (of_tame hx).andThen hf

theorem map {g : α → β} (hx : P.Agrees c p x x') (hg : ∀ a, p a → q (g a)) :
    P.Agrees c q (g <$> x) (g <$> x') :=
  hx.andThen fun a ha => of_pure (hg a ha)

theorem ite {b : Prop} [Decidable b] {y y' : Eval α} (hx : P.Agrees c p x x')
    (hy : P.Agrees c p y y') : P.Agrees c p (if b then x else y) (if b then x' else y') := by
  split
  · exact hx
  · exact hy

/-- A handler starts where the error left the machine, in the same context. -/
theorem handled {handler handler' : Diagnostic → Eval α} (hx : P.Agrees c p x x')
    (hh : ∀ d, P.Agrees c p (handler d) (handler' d)) :
    P.Agrees c p (Eval.handle x handler) (Eval.handle x' handler') := by
  intro m hc hm
  have h := hx m hc hm
  unfold Eval.handle
  generalize x m = o at h
  generalize x' m = o' at h
  cases h with
  | ok hc' hm' ha => exact .ok hc' hm' ha
  | error hc' hm' hd => exact hh _ _ hc' hm'
  | halt => exact .halt
  | stop hr => exact .stop hr

/-! ### Contexts -/

/-- Computations in another context that is changed back afterwards. -/
theorem inContext {enter leave : Context → Context} (hb : leave (enter c) = c)
    (hx : P.Agrees (enter c) p x x') :
    P.Agrees c p (Eval.inContext enter leave x) (Eval.inContext enter leave x') := by
  intro m hc hm
  subst hc
  have h := hx (m.inContext (enter m.context)) rfl hm
  unfold Eval.inContext
  change P.Meets _ p (x (Eval.overContext enter m)) (x' (Eval.overContext enter m)) at h
  generalize x (Eval.overContext enter m) = o at h
  generalize x' (Eval.overContext enter m) = o' at h
  -- What was entered is left again, so the context is the one from before.
  have hback {m' : Machine} (hc : m'.context = enter m.context) :
      (Eval.overContext leave m').context = m.context := by
    change leave m'.context = _
    rw [hc, hb]
  cases h with
  | ok hc' hm' ha => exact .ok (hback hc') hm' ha
  | error hc' hm' hd => exact .error (hback hc') hm' hd
  | halt => exact .halt
  | stop hr => exact .stop hr

theorem inScope {id : ScopeId} (hx : P.Agrees (c.atScope id) p x x') :
    P.Agrees c p (Eval.inScope id x) (Eval.inScope id x') := by
  intro m hc hm
  subst hc
  have h : P.Agrees m.context p
      (Eval.inContext (·.atScope id) (·.atScope m.context.scope) x)
      (Eval.inContext (·.atScope id) (·.atScope m.context.scope) x') := inContext rfl hx
  exact h m rfl hm

theorem inBlock (hx : ∀ id, P.Agrees (c.atScope id) p x x') :
    P.Agrees c p (Eval.inBlock x) (Eval.inBlock x') :=
  tame_andThen (Eval.tame_newChild _) fun id _ => inScope (hx id)

theorem inFile {id : ScopeId} {file : String} (hx : P.Agrees (c.enterFile id file) p x x') :
    P.Agrees c p (Eval.inFile id file x) (Eval.inFile id file x') := by
  intro m hc hm
  subst hc
  have hb : (m.context.enterFile id file).leaveFile m.context.scope m.context.file = m.context := by
    simp only [Context.leaveFile, Context.enterFile, Discipline.tail_map_cons]
  have h : P.Agrees m.context p
      (Eval.inContext (·.enterFile id file) (·.leaveFile m.context.scope m.context.file) x)
      (Eval.inContext (·.enterFile id file) (·.leaveFile m.context.scope m.context.file) x') :=
    inContext hb hx
  exact h m rfl hm

theorem inFunction {name : String} (hx : P.Agrees (c.enterFunction name) p x x') :
    P.Agrees c p (Eval.inFunction name x) (Eval.inFunction name x') := by
  refine inContext ?_ hx
  simp only [Context.leaveFunction, Context.enterFunction, Discipline.tail_map_cons]

/-- Recording the active calls makes no other error of an error. -/
theorem attaching (hx : P.Agrees c p x x') :
    P.Agrees c p (Eval.attaching x) (Eval.attaching x') := by
  intro m hc hm
  have h := hx m hc hm
  unfold Eval.attaching
  generalize x m = o at h
  generalize x' m = o' at h
  cases h with
  | ok hc' hm' ha => exact .ok hc' hm' ha
  | error hc' hm' hd => exact .error hc' hm' (by simpa [Raises] using hd)
  | halt => exact .halt
  | stop hr => exact .stop hr

theorem inCall {frame : CallFrame}
    (hx : ∀ calls, c.calls.push frame = .ok calls → P.Agrees (c.withCalls calls) p x x') :
    P.Agrees c p (Eval.inCall frame x) (Eval.inCall frame x') := by
  intro m hc hm
  subst hc
  unfold Eval.inCall
  cases e : m.context.calls.push frame with
  -- A call too deep is refused before the frame is pushed.
  | error d => exact .error rfl hm (.inr (by simpa using CallStack.not_isStray_push e))
  | ok calls =>
    have hb : (m.context.withCalls calls).withCalls calls.pop = m.context := by
      rw [CallStack.pop_push e]
      rfl
    have h : P.Agrees m.context p
        (Eval.inContext (·.withCalls calls) (fun c => c.withCalls c.calls.pop) (Eval.attaching x))
        (Eval.inContext (·.withCalls calls) (fun c => c.withCalls c.calls.pop)
          (Eval.attaching x')) :=
      inContext hb (attaching (hx calls e))
    exact h m rfl hm

end Agrees

end Rules

end Regime

end ScriptLang
