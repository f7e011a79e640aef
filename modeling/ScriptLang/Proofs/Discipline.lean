import ScriptLang.Eval.Statement
import ScriptLang.Proofs.ImportSearch
import ScriptLang.Proofs.Local
import ScriptLang.Proofs.ScopeHistory
import ScriptLang.Proofs.StatementParts

/-!
# Disciplines

The evaluator is one recursion over expressions, statements and calls, and much that is true of it
has the same shape: *whatever runs gives the context back, and between the machines before and after
something stays or grows*. A discipline is such a something. This file says which obligations make a
discipline hold of the evaluator, and gives the rules by which it passes through the ways of putting
computations together; `Proofs.Evaluator` then walks over the evaluator once for all disciplines.

* A `Discipline` relates the machine before a computation with the machine after it. The relation
  `keeps` is told the scope in which the computation may bind names, if there is one. A computation
  that halts is held to `halts` instead, since the context of a halted machine is not given back.
* `Discipline.Obeys` is the judgement about a computation that starts in a given context.
* `Discipline.Lawful` are the obligations. They mention single steps alone: a local step, one
  change of a scope, a new scope, another context, and the search for a file.
* `Discipline.Imports` is the obligation about the import of a module, which is the one construct
  whose treatment differs from discipline to discipline.

The context is fixed in the judgement because rules need to know it: a name is bound in the current
scope, and what is imported depends on the current file. Since every computation gives the context
back, the next one starts in it, too.
-/

namespace ScriptLang

namespace Machine

/-- The machine in another context. -/
def inContext (m : Machine) (c : Context) : Machine := { m with context := c }

/-- The machine after a change of a scope. -/
def perform (m : Machine) (w : ScopeWrite) : Machine := { m with scopes := m.scopes.perform w }

/-- The machine with one more scope. -/
def withChild (m : Machine) (parent : ScopeId) (role : ScopeRole) : Machine :=
  { m with scopes := (m.scopes.child parent role).2 }

end Machine

namespace Eval

variable {plan : Scopes → Except ScopeError ScopeWrite} {fault : ScopeError → RuntimeFault}
  {loc : Location} {m m' : Machine} {w : ScopeWrite}

/-- A plan is carried out. -/
theorem alterScopes_of_plan (h : plan m.scopes = .ok w) :
    alterScopes plan fault loc m = .ok () (m.perform w) := by
  unfold alterScopes
  rw [h]
  rfl

/-- Without an error, there was a plan. -/
theorem plan_of_alterScopes {u : Unit} (h : alterScopes plan fault loc m = .ok u m') :
    ∃ w, plan m.scopes = .ok w ∧ m' = m.perform w := by
  cases e : plan m.scopes with
  | error d =>
    unfold alterScopes at h
    rw [e] at h
    cases h
  | ok w =>
    rw [alterScopes_of_plan e] at h
    cases h
    exact ⟨w, rfl, rfl⟩

end Eval

/-- The ways into another context that leave the imports under way alone. A scope is entered where
names may be bound in it. -/
inductive Context.Enters (c : Context) : Option ScopeId → Context → Prop where
  | scope (id : ScopeId) : Enters c (some id) (c.atScope id)
  | file (id : ScopeId) (file : String) : Enters c (some id) (c.enterFile id file)
  | function {i : Option ScopeId} (name : String) : Enters c i (c.enterFunction name)
  | call {i : Option ScopeId} (calls : CallStack) : Enters c i (c.withCalls calls)

theorem Context.Enters.loading {c c' : Context} {i : Option ScopeId} (h : c.Enters i c') :
    c'.loading = c.loading := by
  cases h <;> rfl

/-- What the computations of a kind keep. -/
structure Discipline where
  /-- Holds between the machines before and after a computation that ends with a result or an error
  and binds names in the given scope at most. -/
  keeps : Option ScopeId → Machine → Machine → Prop
  /-- Holds between the machine before such a computation that halts and the one where it does. -/
  halts : Option ScopeId → Machine → Machine → Prop
  /-- Which statements may run in a context. -/
  fits : Context → Stmt → Prop

namespace Discipline

variable {α β : Type} {D : Discipline} {c : Context} {i : Option ScopeId} {m m' m₁ : Machine}

/-- The end of a computation that started in `m` is as the discipline wants it. -/
def Ends (D : Discipline) (i : Option ScopeId) (m : Machine) : Outcome α → Prop
  | .ok _ m' | .error _ m' => m'.context = m.context ∧ D.keeps i m m'
  | .halt _ m' => D.halts i m m'

/-- **Obeys.** Started in the context `c`, the computation gives the context back and keeps what the
discipline wants, binding names in the scope `i` at most. -/
structure Obeys (D : Discipline) (c : Context) (i : Option ScopeId) (x : Eval α) : Prop where
  ends : ∀ m, m.context = c → D.Ends i m (x m)

/-- The three computations of an evaluator obey. An expression and a call bind no names in a scope
that exists, a statement binds names in the current one at most. -/
structure Evaluates (D : Discipline) (ev : Evaluator) : Prop where
  expr : ∀ c e, D.Obeys c none (ev.expr e)
  stmt : ∀ c s, D.fits c s → D.Obeys c (s.room c.scope) (ev.stmt s)
  call : ∀ c f args loc name, D.Obeys c none (ev.call f args loc name)

/-- What was kept in the context `c'` is kept when it was entered from `c` and left again. -/
structure Moves (D : Discipline) (i : Option ScopeId) (c c' : Context) : Prop where
  keeps : ∀ {m m'}, m.context = c → m'.context = c' → D.keeps i (m.inContext c') m' →
    D.keeps i m (m'.inContext c)
  halts : ∀ {m m'}, m.context = c → D.halts i (m.inContext c') m' → D.halts i m m'

/-- **Lawful.** The obligations on a discipline. -/
structure Lawful (D : Discipline) : Prop where
  /-- Local steps keep everything. -/
  alike : ∀ {i} {m m' : Machine}, m.Alike m' → D.keeps i m m'
  trans : ∀ {i m₁ m₂ m₃}, D.keeps i m₁ m₂ → D.keeps i m₂ m₃ → D.keeps i m₁ m₃
  /-- More names may be bound. -/
  widen : ∀ {i m m'}, D.keeps none m m' → D.keeps i m m'
  /-- One change of a scope, which respects what is bound there. -/
  write : ∀ {i} {m : Machine} {w}, w.Within m.scopes i → w.Fair m.scopes →
    D.keeps i m (m.perform w)
  /-- Names in a scope that was made meanwhile do not count. -/
  child : ∀ {m : Machine} {m' parent role},
    D.keeps (some m.scopes.table.size) (m.withChild parent role) m' → D.keeps none m m'
  /-- Another scope, file or call may be entered; imports are treated apart. -/
  moves : ∀ {i} {c c' : Context}, c.Enters i c' → D.Moves i c c'
  alike_halts : ∀ {i} {m m' : Machine}, m.Alike m' → D.halts i m m'
  keeps_halts : ∀ {i m₁ m₂ m₃}, D.keeps i m₁ m₂ → D.halts i m₂ m₃ → D.halts i m₁ m₃
  widen_halts : ∀ {i m m'}, D.halts none m m' → D.halts i m m'
  child_halts : ∀ {m : Machine} {m' parent role},
    D.halts (some m.scopes.table.size) (m.withChild parent role) m' → D.halts none m m'
  /-- A part of a statement fits where the statement does. -/
  part : ∀ {c s s'}, D.fits c s → s' ∈ s.parts → D.fits c s'
  atScope : ∀ {c : Context} {s id}, D.fits c s → D.fits (c.atScope id) s
  /-- The body of a function fits, wherever the function is called. -/
  body : ∀ {c : Context} {s name id calls},
    D.fits (((c.enterFunction name).atScope id).withCalls calls) s
  /-- The statements of a file fit where they run as that file. -/
  program : ∀ {c : Context} {id source path p}, Program.ofSource source path = .ok p →
    ∀ s ∈ p.statements, D.fits (c.enterFile id path) s
  sources : ∀ {m : Machine} (sources : SourceMap), D.keeps none m { m with sources := sources }
  /-- An import asks the host for a place. -/
  probed : ∀ {m : Machine} (place : String), D.keeps none m (m.probed place)
  /-- An import has searched its places. -/
  sought : ∀ {m : Machine} {loc path name tried}, D.fits m.context (.load loc path name) →
    m.Sought (m.host.paths.importPlaces m.context.file path) tried →
    D.keeps none m (m.after (.sought loc path tried))

/-- The import of a module obeys wherever a statement that does it may run. -/
def Imports (D : Discipline) : Prop :=
  ∀ {ev c loc path name}, D.Evaluates ev → D.fits c (.load loc path name) →
    D.Obeys c none (Eval.importModule ev path loc)

/-- An end as seen from a machine earlier on. -/
theorem Ends.after (hD : D.Lawful) (hc : m₁.context = m.context) (hk : D.keeps i m m₁)
    {o : Outcome α} (h : D.Ends i m₁ o) : D.Ends i m o := by
  cases o with
  | ok a m' => exact ⟨h.1.trans hc, hD.trans hk h.2⟩
  | error d m' => exact ⟨h.1.trans hc, hD.trans hk h.2⟩
  | halt r m' => exact hD.keeps_halts hk h

namespace Obeys

/-! ### Rules for every discipline -/

theorem widen (hD : D.Lawful) {x : Eval α} (hx : D.Obeys c none x) : D.Obeys c i x := by
  refine ⟨fun m hm => ?_⟩
  have h := hx.ends m hm
  cases e : x m with
  | ok a m' => rw [e] at h; exact ⟨h.1, hD.widen h.2⟩
  | error d m' => rw [e] at h; exact ⟨h.1, hD.widen h.2⟩
  | halt r m' => rw [e] at h; exact hD.widen_halts h

/-- A local computation obeys every discipline. -/
theorem of_local (hD : D.Lawful) {x : Eval α} (hx : Eval.Local x) : D.Obeys c i x := by
  refine ⟨fun m _ => ?_⟩
  have h := hx.alike m
  cases e : x m with
  | ok a m' => rw [e] at h; exact ⟨h.context, hD.alike h⟩
  | error d m' => rw [e] at h; exact ⟨h.context, hD.alike h⟩
  | halt r m' => rw [e] at h; exact hD.alike_halts h

/-- So does a confined one, wherever its errors are. -/
theorem of_confined (hD : D.Lawful) {loc : Location} {x : Eval α} (hx : Eval.Confined loc x) :
    D.Obeys c i x := of_local hD hx.toLocal

theorem andThen (hD : D.Lawful) {x : Eval α} {f : α → Eval β} (hx : D.Obeys c i x)
    (hf : ∀ a, D.Obeys c i (f a)) : D.Obeys c i (x >>= f) := by
  refine ⟨fun m hm => ?_⟩
  have h := hx.ends m hm
  change D.Ends i m (Eval.andThen x f m)
  unfold Eval.andThen
  cases e : x m with
  -- The context is back, so the second computation starts where its hypothesis expects it.
  | ok a m' =>
    rw [e] at h
    exact .after hD h.1 h.2 ((hf a).ends m' (h.1.trans hm))
  | error d m' => rw [e] at h; exact h
  | halt r m' => rw [e] at h; exact h

theorem map (hD : D.Lawful) {f : α → β} {x : Eval α} (hx : D.Obeys c i x) :
    D.Obeys c i (f <$> x) :=
  hx.andThen hD fun a => of_local hD (.of_pure (f a))

theorem ite {p : Prop} [Decidable p] {x y : Eval α} (hx : D.Obeys c i x)
    (hy : D.Obeys c i y) : D.Obeys c i (if p then x else y) := by
  split
  · exact hx
  · exact hy

/-- What comes after asking for the current scope knows it. -/
theorem scope_andThen {f : ScopeId → Eval β} (hf : D.Obeys c i (f c.scope)) :
    D.Obeys c i (Eval.scope >>= f) := by
  refine ⟨fun m hm => ?_⟩
  have h := hf.ends m hm
  rw [← hm] at h
  exact h

/-- A handler starts where the error left the machine, in the same context. -/
theorem handled (hD : D.Lawful) {x : Eval α} {handler : Diagnostic → Eval α}
    (hx : D.Obeys c i x) (hh : ∀ d, D.Obeys c i (handler d)) :
    D.Obeys c i (Eval.handle x handler) := by
  refine ⟨fun m hm => ?_⟩
  have h := hx.ends m hm
  unfold Eval.handle
  cases e : x m with
  | ok a m' => rw [e] at h; exact h
  | error d m' =>
    rw [e] at h
    exact .after hD h.1 h.2 ((hh d).ends m' (h.1.trans hm))
  | halt r m' => rw [e] at h; exact h

/-! ### Scopes -/

/-- A planned change of the scopes that stays within what may be bound. -/
theorem alterScopes (hD : D.Lawful) {plan : Scopes → Except ScopeError ScopeWrite}
    {fault : ScopeError → RuntimeFault} {loc : Location}
    (hp : ∀ t w, plan t = .ok w → w.Within t i) (hf : ∀ t w, plan t = .ok w → w.Fair t) :
    D.Obeys c i (Eval.alterScopes plan fault loc) := by
  refine ⟨fun m _ => ?_⟩
  unfold Eval.alterScopes
  -- A plan that is refused changes nothing.
  cases e : plan m.scopes with
  | ok w => exact ⟨rfl, hD.write (hp _ _ e) (hf _ _ e)⟩
  | error d => exact ⟨rfl, hD.alike (.refl m)⟩

theorem defineIn (hD : D.Lawful) (id : ScopeId) (name : String) (v : Value) (kind : DeclKind)
    (loc : Location) : D.Obeys c (some id) (Eval.defineIn id name v kind loc) :=
  alterScopes hD (fun _ _ => Scopes.planDefine_within) fun _ _ => Scopes.planDefine_fair

theorem defineIn_root (hD : D.Lawful) (name : String) (v : Value) (kind : DeclKind)
    (loc : Location) : D.Obeys c i (Eval.defineIn Scopes.root name v kind loc) :=
  alterScopes hD (fun _ _ => Scopes.planDefine_root) fun _ _ => Scopes.planDefine_fair

theorem define (hD : D.Lawful) (name : String) (v : Value) (kind : DeclKind) (loc : Location) :
    D.Obeys c (some c.scope) (Eval.define name v kind loc) :=
  scope_andThen (defineIn hD c.scope name v kind loc)

theorem setVariable (hD : D.Lawful) (name : String) (v : Value) (loc : Location) :
    D.Obeys c (some c.scope) (Eval.setVariable name v loc) :=
  scope_andThen <|
    alterScopes hD (fun _ _ => Scopes.planSet_within) fun _ _ => Scopes.planSet_fair

/-- What happens in a new scope, once its number is known, may bind names in it. -/
theorem newChildOf_andThen (hD : D.Lawful) {parent : ScopeId} {role : ScopeRole}
    {f : ScopeId → Eval β} (hf : ∀ id, D.Obeys c (some id) (f id)) :
    D.Obeys c none (Eval.newChildOf parent role >>= f) := by
  refine ⟨fun m hm => ?_⟩
  -- The number of the new scope is the size of the table.
  have h := (hf m.scopes.table.size).ends (m.withChild parent role) hm
  change D.Ends none m (f m.scopes.table.size (m.withChild parent role))
  cases e : f m.scopes.table.size (m.withChild parent role) with
  | ok a m' => rw [e] at h; exact ⟨h.1, hD.child h.2⟩
  | error d m' => rw [e] at h; exact ⟨h.1, hD.child h.2⟩
  | halt r m' => rw [e] at h; exact hD.child_halts h

theorem newChild_andThen (hD : D.Lawful) {role : ScopeRole} {f : ScopeId → Eval β}
    (hf : ∀ id, D.Obeys c (some id) (f id)) : D.Obeys c none (Eval.newChild role >>= f) := by
  have h : D.Obeys c none (Eval.newChildOf c.scope role >>= f) := newChildOf_andThen hD hf
  refine ⟨fun m hm => ?_⟩
  have hm' := h.ends m hm
  rw [← hm] at hm'
  exact hm'

/-! ### Contexts -/

/-- A computation in another context that is changed back afterwards. -/
theorem inContext {enter leave : Context → Context} {x : Eval α} (hm : D.Moves i c (enter c))
    (hb : leave (enter c) = c) (hx : D.Obeys (enter c) i x) :
    D.Obeys c i (Eval.inContext enter leave x) := by
  refine ⟨fun m hc => ?_⟩
  subst hc
  have h := hx.ends (m.inContext (enter m.context)) rfl
  -- The machine that is left is in the context that was entered, so leaving gives the old one.
  have hback {m' : Machine} (hc : m'.context = enter m.context) :
      Eval.overContext leave m' = m'.inContext m.context := by
    change m'.inContext (leave m'.context) = _
    rw [hc, hb]
  change D.Ends i m (match x (m.inContext (enter m.context)) with
    | .ok a m => .ok a (Eval.overContext leave m)
    | .error d m => .error d (Eval.overContext leave m)
    | .halt h m => .halt h m)
  cases e : x (m.inContext (enter m.context)) with
  | ok a m' =>
    rw [e] at h
    simp only [hback h.1]
    exact ⟨rfl, hm.keeps rfl h.1 h.2⟩
  | error d m' =>
    rw [e] at h
    simp only [hback h.1]
    exact ⟨rfl, hm.keeps rfl h.1 h.2⟩
  | halt r m' => rw [e] at h; exact hm.halts rfl h

theorem inScope (hD : D.Lawful) {id : ScopeId} {x : Eval α}
    (hx : D.Obeys (c.atScope id) (some id) x) : D.Obeys c (some id) (Eval.inScope id x) := by
  refine ⟨fun m hm => ?_⟩
  subst hm
  have h : D.Obeys m.context (some id)
      (Eval.inContext (·.atScope id) (·.atScope m.context.scope) x) :=
    inContext (hD.moves (.scope id)) rfl hx
  exact h.ends m rfl

theorem inBlock (hD : D.Lawful) {x : Eval α}
    (hx : ∀ id, D.Obeys (c.atScope id) (some id) x) : D.Obeys c none (Eval.inBlock x) :=
  newChild_andThen hD fun id => inScope hD (hx id)

end Obeys

/-! ### What is under way -/

/-- Taking back what was put onto a list of activities. -/
theorem tail_map_cons (g : Ghost (List Activity)) (a : Activity) :
    (g.map (a :: ·)).map List.tail = g :=
  Ghost.ext_val (by simp)

namespace Obeys

theorem inFile (hD : D.Lawful) {id : ScopeId} {file : String} {x : Eval α}
    (hx : D.Obeys (c.enterFile id file) (some id) x) :
    D.Obeys c (some id) (Eval.inFile id file x) := by
  refine ⟨fun m hm => ?_⟩
  subst hm
  have hb : (m.context.enterFile id file).leaveFile m.context.scope m.context.file = m.context := by
    simp only [Context.leaveFile, Context.enterFile, tail_map_cons]
  have h : D.Obeys m.context (some id) (Eval.inContext (·.enterFile id file)
      (·.leaveFile m.context.scope m.context.file) x) :=
    inContext (hD.moves (.file id file)) hb hx
  exact h.ends m rfl

theorem inFunction (hD : D.Lawful) {name : String} {x : Eval α}
    (hx : D.Obeys (c.enterFunction name) i x) : D.Obeys c i (Eval.inFunction name x) := by
  refine inContext (hD.moves (.function name)) ?_ hx
  simp only [Context.leaveFunction, Context.enterFunction, tail_map_cons]

/-- Recording the active calls on an error changes the error alone. -/
theorem attaching {x : Eval α} (hx : D.Obeys c i x) : D.Obeys c i (Eval.attaching x) := by
  refine ⟨fun m hm => ?_⟩
  have h := hx.ends m hm
  unfold Eval.attaching
  cases e : x m with
  | ok a m' => rw [e] at h; exact h
  | error d m' => rw [e] at h; exact h
  | halt r m' => rw [e] at h; exact h

theorem inCall (hD : D.Lawful) {frame : CallFrame} {x : Eval α}
    (hx : ∀ calls, D.Obeys (c.withCalls calls) i x) : D.Obeys c i (Eval.inCall frame x) := by
  refine ⟨fun m hm => ?_⟩
  subst hm
  unfold Eval.inCall
  cases e : m.context.calls.push frame with
  -- A call too deep is refused before the frame is pushed.
  | error d => exact ⟨rfl, hD.alike (.refl m)⟩
  | ok calls =>
    have hb : (m.context.withCalls calls).withCalls calls.pop = m.context := by
      rw [CallStack.pop_push e]
      rfl
    have h : D.Obeys m.context i (Eval.inContext (·.withCalls calls)
        (fun c => c.withCalls c.calls.pop) (Eval.attaching x)) :=
      inContext (hD.moves (.call calls)) hb (attaching (hx calls))
    exact h.ends m rfl

end Obeys

end Discipline

/-! ### Ends -/

/-- The result of a computation that has one. -/
def Outcome.result? {α : Type} : Outcome α → Option α
  | .ok a _ => some a
  | _ => none

theorem Outcome.eq_of_result? {α : Type} {a : α} {o : Outcome α} (h : o.result? = some a) :
    o = .ok a o.machine := by
  cases o with
  | ok _ _ =>
    cases h
    rfl
  | _ => cases h

/-- The end of a computation, back in a context. A halt stays where it is. -/
def Outcome.backIn {α : Type} (c : Context) : Outcome α → Outcome α
  | .ok a m => .ok a (m.inContext c)
  | .error d m => .error d (m.inContext c)
  | .halt r m => .halt r m

theorem Outcome.backIn_backIn {α : Type} (c c' : Context) (o : Outcome α) :
    (o.backIn c').backIn c = o.backIn c := by
  cases o <;> rfl

/-- A context that is changed back is the one before. -/
theorem Eval.inContext_eq_backIn {α : Type} {D : Discipline} {i : Option ScopeId} {m : Machine}
    {enter leave : Context → Context} {x : Eval α}
    (h : D.Ends i m (inContext enter leave x m)) :
    inContext enter leave x m = (x (m.inContext (enter m.context))).backIn m.context := by
  have hleave : inContext enter leave x m =
      (match x (m.inContext (enter m.context)) with
        | .ok a n => .ok a (overContext leave n)
        | .error d n => .error d (overContext leave n)
        | .halt r n => .halt r n : Outcome α) := rfl
  rw [hleave] at h ⊢
  cases e : x (m.inContext (enter m.context)) with
  | ok a n =>
    rw [e] at h
    exact congrArg (fun c => Outcome.ok a (n.inContext c)) h.1
  | error d n =>
    rw [e] at h
    exact congrArg (fun c => Outcome.error d (n.inContext c)) h.1
  | halt r n => rfl

end ScriptLang
