import ScriptLang.Proofs.CallTraces
import ScriptLang.Proofs.Discipline
import ScriptLang.Proofs.LocatedTrees
import ScriptLang.Proofs.ProvenanceLibrary

/-!
# What errors say about where they are from

An error of a running program shows a place and the calls that were active. Both are put into it
where it is raised, and it is handed on from there through calls, handlers, functions of the library
and imports. This file has the rules by which what an error says stays true on the way; which calls
it shows is the matter of `Proofs.CallTraces`.

* An `Attribution` says which texts may be read as files and which places there are once some texts
  have been read. What has been read matters, since an error can only be at a place in a file that
  has been read, and every import reads one more.
* `Attribution.Holds` and `Attribution.Fits` say that the functions in a value and the jump that a
  statement ends with are from files that have been read, and `Attribution.Explains` says it of an
  error.
* `Attribution.Accounts` is the judgement about a computation in a context after some texts have
  been read. `Eval.RaisesAt` is a simpler one for computations that read nothing and raise their
  errors themselves.

The rules follow the ways of putting computations together, as those of disciplines do.
-/

namespace ScriptLang

/-! ### What has been read -/

/-- The texts on record, and the files whose import has begun. -/
structure Loaded where
  texts : SourceMap
  begun : List String

namespace Loaded

/-- One more text on record. -/
def add (S : Loaded) (file text : String) : Loaded := { S with texts := S.texts.add file text }

/-- One more file whose import has begun. -/
def begin (S : Loaded) (file : String) : Loaded := { S with begun := file :: S.begun }

end Loaded

/-- What a machine has read. -/
noncomputable def Machine.loaded (m : Machine) : Loaded := ⟨m.sources, begunFiles m.log⟩

theorem Machine.loaded_congr {m m' : Machine} (hs : m'.sources = m.sources)
    (hj : m'.journal = m.journal) : m'.loaded = m.loaded := by
  rw [loaded, hs, log_congr hj, loaded]

theorem Machine.Alike.loaded {m m' : Machine} (h : m.Alike m') : m'.loaded = m.loaded :=
  Machine.loaded_congr h.sources h.journal

/-! ### Attributions -/

/-- Which texts may be read as files, and which places there are. -/
structure Attribution where
  /-- After something has been read, a file may be read that has a text. -/
  reads : Loaded → String → String → Prop
  /-- The places in the files that have been read. -/
  places : Loaded → Location → Prop
  add : ∀ {S file text loc}, reads S file text → places S loc → places (S.add file text) loc
  begin : ∀ {S file loc}, places S loc → places (S.begin file) loc
  /-- The program of a text has its locations in that text. -/
  program : ∀ {S file text p}, reads S file text → Program.ofSource text file = .ok p →
    p.Located (places (S.add file text))

namespace Attribution

variable {A : Attribution} {S S₁ S₂ : Loaded} {α β : Type}

/-- Files have been read, one after the other. -/
inductive Leads (A : Attribution) (S : Loaded) : Loaded → Prop
  | refl : Leads A S S
  | add {S' : Loaded} {file text : String} (h : Leads A S S') (hr : A.reads S' file text) :
    Leads A S (S'.add file text)
  | begin {S' : Loaded} (file : String) (h : Leads A S S') : Leads A S (S'.begin file)

namespace Leads

theorem trans (h : A.Leads S S₁) (h' : A.Leads S₁ S₂) : A.Leads S S₂ := by
  induction h' with
  | refl => exact h
  | add _ hr ih => exact .add ih hr
  | begin file _ ih => exact .begin file ih

/-- Reading takes no place away. -/
theorem places (h : A.Leads S S₁) {loc : Location} (hloc : A.places S loc) : A.places S₁ loc := by
  induction h with
  | refl => exact hloc
  | add _ hr ih => exact A.add hr ih
  | begin _ _ ih => exact A.begin ih

theorem expr (h : A.Leads S S₁) {e : Expr} (he : e.Located (A.places S)) :
    e.Located (A.places S₁) := he.mono fun _ => h.places

theorem exprs (h : A.Leads S S₁) {es : List Expr} (he : ∀ e ∈ es, e.Located (A.places S)) :
    ∀ e ∈ es, e.Located (A.places S₁) := fun e hmem => h.expr (he e hmem)

theorem stmts (h : A.Leads S S₁) {body : List Stmt} (hb : ∀ s ∈ body, s.Located (A.places S)) :
    ∀ s ∈ body, s.Located (A.places S₁) := fun s hmem => (hb s hmem).mono fun _ => h.places

end Leads

/-- The functions in a piece of data are from files that have been read. -/
def Holds [Carries α] (A : Attribution) (S : Loaded) (a : α) : Prop :=
  Among (FunctionDef.Located (A.places S)) a

/-- A statement ends with such a value, or with a jump from a file that has been read. -/
def Fits (A : Attribution) (S : Loaded) : Flow → Prop
  | .normal v | .giveBack v => A.Holds S v
  | .breakTo j | .continueTo j => A.places S j.location

/-- **Explains.** What an error says that leaves a computation in a context: which calls were
active, and where it was raised. It quotes no line, since that is done at last. -/
structure Explains (A : Attribution) (c : Context) (S : Loaded) (d : Diagnostic) : Prop where
  trace : c.calls.Traces d
  place : d.category = .runtime → A.places S d.location ∧ d.snippet = none

/-- How a computation may end that started in the context `c` when `S` had been read. -/
inductive Ends (A : Attribution) (c : Context) (S : Loaded) (post : Loaded → α → Prop) :
    Outcome α → Prop
  | ok {a m} (hc : m.context = c) (hS : A.Leads S m.loaded) (hm : A.Holds m.loaded m)
    (ha : post m.loaded a) : Ends A c S post (.ok a m)
  | error {d m} (hc : m.context = c) (hS : A.Leads S m.loaded) (hm : A.Holds m.loaded m)
    (hd : A.Explains c m.loaded d) : Ends A c S post (.error d m)
  | halt {r m} : Ends A c S post (.halt r m)

/-- **Accounts.** From every machine in the context `c` that has read `S` and whose functions are
from there, the computation gives the context back. It may read more, and its result and its errors
are about what has been read then. -/
def Accounts (A : Attribution) (c : Context) (S : Loaded) (post : Loaded → α → Prop)
    (x : Eval α) : Prop :=
  ∀ m, m.context = c → m.loaded = S → A.Holds S m → A.Ends c S post (x m)

/-- The three computations of an evaluator account for what they do. -/
structure Evaluates (A : Attribution) (ev : Evaluator) : Prop where
  expr : ∀ {c S e}, e.Located (A.places S) → A.Accounts c S A.Holds (ev.expr e)
  stmt : ∀ {c S s}, s.Located (A.places S) → A.Accounts c S A.Fits (ev.stmt s)
  call : ∀ {c S f args loc name}, A.Holds S f → A.Holds S args → A.places S loc →
    A.Accounts c S A.Holds (ev.call f args loc name)

theorem Holds.grow [Carries α] {a : α} (h : A.Holds S a) (hS : A.Leads S S₁) : A.Holds S₁ a :=
  Among.mono h fun _ hfn => hfn.mono fun _ => hS.places

end Attribution

/-! ### Computations that raise their errors themselves -/

namespace Eval

variable {α β : Type} {Q : Location → Prop}

/-- A computation that would fail at every place does not fail, since there are two places. -/
theorem Confined.never {x : Eval α} (h : ∀ loc, Confined loc x) (m : Machine) (d : Diagnostic)
    (m' : Machine) : x m ≠ .error d m' := by
  intro e
  let other : Location := { d.location with line := d.location.line + 1 }
  have hother : d.location = other := ((h other).fresh e).location
  have hline := congrArg Location.line hother
  exact absurd hline (Nat.ne_of_lt (Nat.lt_succ_self _))

/-- **Raises at.** The computation gives the context back and reads no file, and it raises its
errors itself, at places of a kind. -/
structure RaisesAt (Q : Location → Prop) (x : Eval α) : Prop where
  context : ∀ m, (x m).machine.context = m.context
  loaded : ∀ m, (x m).machine.loaded = m.loaded
  fresh : ∀ {m m' : Machine} {d : Diagnostic}, x m = .error d m' →
    ∃ loc, Q loc ∧ d.Fresh loc m.context.calls.frames

namespace RaisesAt

/-- A computation that is confined to a place. -/
theorem of_confined {loc : Location} {x : Eval α} (hx : Confined loc x) (h : Q loc) :
    RaisesAt Q x :=
  ⟨fun m => (hx.alike m).context, fun m => (hx.alike m).loaded, fun e => ⟨loc, h, hx.fresh e⟩⟩

/-- A computation that cannot fail. -/
theorem of_total {x : Eval α} (hx : ∀ loc, Confined loc x) : RaisesAt Q x :=
  ⟨fun m => ((hx default).alike m).context, fun m => ((hx default).alike m).loaded,
    fun e => absurd e (Confined.never hx _ _ _)⟩

theorem of_pure (a : α) : RaisesAt Q (pure a) := of_total fun _ => .of_pure a

theorem andThen {x : Eval α} {f : α → Eval β} (hx : RaisesAt Q x) (hf : ∀ a, RaisesAt Q (f a)) :
    RaisesAt Q (x >>= f) := by
  have hc := hx.context
  have hs := hx.loaded
  refine ⟨fun m => ?_, fun m => ?_, fun {m m' d} e => ?_⟩
  · have h := hc m
    change (Eval.andThen x f m).machine.context = _
    unfold Eval.andThen
    cases e : x m with
    | ok a m₁ => rw [e] at h; exact ((hf a).context m₁).trans h
    | error d m₁ => rwa [e] at h
    | halt r m₁ => rwa [e] at h
  · have h := hs m
    change (Eval.andThen x f m).machine.loaded = _
    unfold Eval.andThen
    cases e : x m with
    | ok a m₁ => rw [e] at h; exact ((hf a).loaded m₁).trans h
    | error d m₁ => rwa [e] at h
    | halt r m₁ => rwa [e] at h
  · change Eval.andThen x f m = _ at e
    unfold Eval.andThen at e
    cases h : x m with
    | ok a m₁ =>
      rw [h] at e
      -- The calls that are active for the second computation are those from before.
      have hcontext : m₁.context = m.context := by
        have := hc m
        rwa [h] at this
      exact hcontext ▸ (hf a).fresh e
    | error d₁ m₁ =>
      rw [h] at e
      cases e
      exact hx.fresh h
    | halt r m₁ =>
      rw [h] at e
      cases e

theorem ite {p : Prop} [Decidable p] {x y : Eval α} (hx : RaisesAt Q x) (hy : RaisesAt Q y) :
    RaisesAt Q (if p then x else y) := by
  split
  · exact hx
  · exact hy

/-! ### Scopes -/

theorem newChildOf (parent : ScopeId) (role : ScopeRole) :
    RaisesAt Q (Eval.newChildOf parent role) :=
  ⟨fun _ => rfl, fun _ => rfl, fun e => nomatch e⟩

theorem newChild (role : ScopeRole) : RaisesAt Q (Eval.newChild role) :=
  andThen (of_total fun _ => confined_scope) fun id => newChildOf id role

theorem alterScopes (plan : Scopes → Except ScopeError ScopeWrite)
    (fault : ScopeError → RuntimeFault) {loc : Location} (h : Q loc) :
    RaisesAt Q (Eval.alterScopes plan fault loc) := by
  refine ⟨fun m => ?_, fun m => ?_, fun {m m' d} e => ?_⟩
  · unfold Eval.alterScopes
    split <;> rfl
  · unfold Eval.alterScopes
    split <;> rfl
  · unfold Eval.alterScopes at e
    split at e
    · cases e
    · cases e
      exact ⟨loc, h, RuntimeFault.fresh_toDiagnostic ..⟩

theorem defineIn (id : ScopeId) (name : String) (v : Value) (kind : DeclKind) {loc : Location}
    (h : Q loc) : RaisesAt Q (Eval.defineIn id name v kind loc) := alterScopes _ _ h

theorem define (name : String) (v : Value) (kind : DeclKind) {loc : Location} (h : Q loc) :
    RaisesAt Q (Eval.define name v kind loc) :=
  andThen (of_total fun _ => confined_scope) fun id => defineIn id name v kind h

theorem setVariable (name : String) (v : Value) {loc : Location} (h : Q loc) :
    RaisesAt Q (Eval.setVariable name v loc) :=
  andThen (of_total fun _ => confined_scope) fun _ => alterScopes _ _ h

end RaisesAt

end Eval

/-! ### Rules -/

namespace Attribution

variable {A : Attribution} {S S₁ : Loaded} {c : Context} {α β : Type}
  {p : Loaded → α → Prop} {q : Loaded → β → Prop} {x : Eval α} {f : α → Eval β}

/-- An error that has just been raised at a place. -/
theorem explains_of_fresh {loc : Location} {d : Diagnostic} (h : d.Fresh loc c.calls.frames)
    (hloc : A.places S loc) : A.Explains c S d :=
  ⟨.of_fresh h, fun _ => ⟨h.location.symm ▸ hloc, h.snippet⟩⟩

theorem Ends.explains {d : Diagnostic} {m : Machine} (h : A.Ends c S p (.error d m)) :
    A.Explains c m.loaded d := by
  cases h
  assumption

/-- An end as seen from earlier on. -/
theorem Ends.after (hS : A.Leads S S₁) {o : Outcome α} (h : A.Ends c S₁ p o) : A.Ends c S p o := by
  cases h with
  | ok hc hS' hm ha => exact .ok hc (hS.trans hS') hm ha
  | error hc hS' hm hd => exact .error hc (hS.trans hS') hm hd
  | halt => exact .halt

/-- One computation after the other, in a given machine. -/
theorem Ends.andThen {m : Machine} (h : A.Ends c S p (x m))
    (hf : ∀ a m', m'.context = c → A.Leads S m'.loaded → A.Holds m'.loaded m' →
      p m'.loaded a → A.Ends c m'.loaded q (f a m')) : A.Ends c S q ((x >>= f) m) := by
  change A.Ends c S q (Eval.andThen x f m)
  unfold Eval.andThen
  generalize x m = o at h
  cases h with
  | @ok a m' hc hS hm ha => exact .after hS (hf a m' hc hS hm ha)
  | error hc hS hm hd => exact .error hc hS hm hd
  | halt => exact .halt

/-- A tame computation that raises its errors at places, in a given machine. -/
theorem Ends.of_tame [Carries α] {m : Machine} (ht : Eval.Tame (FunctionDef.Located (A.places S)) x)
    (hx : Eval.RaisesAt (A.places S) x) (hc : m.context = c) (hS : m.loaded = S)
    (hm : A.Holds S m) : A.Ends c S A.Holds (x m) := by
  have h := ht.ends m hm
  have hs := hx.loaded m
  cases e : x m with
  | ok a m' =>
    -- Nothing was loaded meanwhile, so the places are those from before.
    rw [e] at h hs
    have hS' : m'.loaded = S := hs.trans hS
    refine .ok (h.1.trans hc) ?_ ?_ ?_
    · exact hS' ▸ .refl
    · exact hS'.symm ▸ h.2.2
    · exact hS'.symm ▸ h.2.1
  | error d m' =>
    rw [e] at h hs
    have hS' : m'.loaded = S := hs.trans hS
    obtain ⟨loc, hloc, hd⟩ := hx.fresh e
    refine .error (h.1.trans hc) ?_ ?_ ?_
    · exact hS' ▸ .refl
    · exact hS'.symm ▸ h.2.2
    · exact hS'.symm ▸ explains_of_fresh (hc ▸ hd) hloc
  | halt r m' => exact .halt

namespace Accounts

theorem of_tame [Carries α] (ht : Eval.Tame (FunctionDef.Located (A.places S)) x)
    (hx : Eval.RaisesAt (A.places S) x) : A.Accounts c S A.Holds x :=
  fun _ hc hS hm => .of_tame ht hx hc hS hm

theorem of_pure {a : α} (ha : p S a) : A.Accounts c S p (pure a) := by
  intro m hc hS hm
  subst hS
  exact .ok hc .refl hm ha

theorem of_fail {fault : RuntimeFault} {loc : Location} (h : A.places S loc) :
    A.Accounts c S p (Eval.fail fault loc) := by
  intro m hc hS hm
  subst hS
  exact .error hc .refl hm (explains_of_fresh (hc ▸ fault.fresh_toDiagnostic loc _) h)

theorem of_refuse {report : Report} {loc : Location} (h : A.places S loc) :
    A.Accounts c S p (Eval.refuse report loc) := by
  intro m hc hS hm
  subst hS
  exact .error hc .refl hm (explains_of_fresh (hc ▸ report.fresh_toDiagnostic loc _) h)

theorem of_halt {r : Halt} : A.Accounts c S p (Eval.halt r) := fun _ _ _ _ => .halt

theorem andThen (hx : A.Accounts c S p x)
    (hf : ∀ {S'}, A.Leads S S' → ∀ a, p S' a → A.Accounts c S' q (f a)) :
    A.Accounts c S q (x >>= f) :=
  fun m hc hS hm => (hx m hc hS hm).andThen fun a m' hc' hS' hm' ha => hf hS' a ha m' hc' rfl hm'

/-- What comes after a tame computation. It has read nothing. -/
theorem tame_andThen [Carries α] (ht : Eval.Tame (FunctionDef.Located (A.places S)) x)
    (hx : Eval.RaisesAt (A.places S) x) (hf : ∀ a, A.Holds S a → A.Accounts c S q (f a)) :
    A.Accounts c S q (x >>= f) := by
  intro m hc hS hm
  subst hS
  -- Tameness tells the result, and `RaisesAt` that nothing has been read for it.
  have h := ht.ends m hm
  have hs := hx.loaded m
  change A.Ends c _ q (Eval.andThen x f m)
  unfold Eval.andThen
  cases e : x m with
  | ok a m' =>
    rw [e] at h hs
    have hS' : m'.loaded = m.loaded := hs
    exact hf a h.2.1 m' (h.1.trans hc) hS' h.2.2
  | error d m' =>
    have h' := Ends.of_tame ht hx hc rfl hm
    rw [e] at h'
    cases h' with
    | error hc' hS' hm' hd => exact .error hc' hS' hm' hd
  | halt r m' => exact .halt

theorem map {g : α → β} (hx : A.Accounts c S p x)
    (hg : ∀ {S'}, A.Leads S S' → ∀ a, p S' a → q S' (g a)) : A.Accounts c S q (g <$> x) :=
  hx.andThen fun hS a ha => of_pure (hg hS a ha)

theorem ite {b : Prop} [Decidable b] {y : Eval α} (hx : A.Accounts c S p x)
    (hy : A.Accounts c S p y) : A.Accounts c S p (if b then x else y) := by
  split
  · exact hx
  · exact hy

/-- A handler starts where the error left the machine, with what has been read until then. -/
theorem handled {handler : Diagnostic → Eval α} (hx : A.Accounts c S p x)
    (hh : ∀ {S'}, A.Leads S S' → ∀ d, A.Accounts c S' p (handler d)) :
    A.Accounts c S p (Eval.handle x handler) := by
  intro m hc hS hm
  have h := hx m hc hS hm
  unfold Eval.handle
  generalize x m = o at h
  cases h with
  | ok hc' hS' hm' ha => exact .ok hc' hS' hm' ha
  | @error d m' hc' hS' hm' hd => exact .after hS' (hh hS' d m' hc' rfl hm')
  | halt => exact .halt

/-! ### Contexts -/

/-- A computation in another context, with the same active calls, that is left again afterwards. -/
theorem inContext {enter leave : Context → Context} (hb : leave (enter c) = c)
    (hcalls : (enter c).calls = c.calls) (hx : A.Accounts (enter c) S p x) :
    A.Accounts c S p (Eval.inContext enter leave x) := by
  intro m hc hS hm
  subst hc
  have h := hx (m.inContext (enter m.context)) rfl hS hm
  unfold Eval.inContext
  change A.Ends _ _ p (x (Eval.overContext enter m)) at h
  generalize x (Eval.overContext enter m) = o at h
  -- What was entered is left again, so the context is the one from before.
  have hback {m' : Machine} (hc : m'.context = enter m.context) :
      (Eval.overContext leave m').context = m.context := by
    change leave m'.context = _
    rw [hc, hb]
  cases h with
  | ok hc' hS' hm' ha => exact .ok (hback hc') hS' hm' ha
  | error hc' hS' hm' hd => exact .error (hback hc') hS' hm' ⟨hcalls ▸ hd.trace, hd.place⟩
  | halt => exact .halt

theorem inScope {id : ScopeId} (hx : A.Accounts (c.atScope id) S p x) :
    A.Accounts c S p (Eval.inScope id x) := by
  intro m hc hS hm
  subst hc
  have h : A.Accounts m.context S p
      (Eval.inContext (·.atScope id) (·.atScope m.context.scope) x) := inContext rfl rfl hx
  exact h m rfl hS hm

theorem inBlock (hx : ∀ id, A.Accounts (c.atScope id) S p x) :
    A.Accounts c S p (Eval.inBlock x) :=
  tame_andThen (Eval.tame_newChild _) (.newChild _) fun id _ => inScope (hx id)

theorem inFile {id : ScopeId} {file : String} (hx : A.Accounts (c.enterFile id file) S p x) :
    A.Accounts c S p (Eval.inFile id file x) := by
  intro m hc hS hm
  subst hc
  have hb : (m.context.enterFile id file).leaveFile m.context.scope m.context.file = m.context := by
    simp only [Context.leaveFile, Context.enterFile, Discipline.tail_map_cons]
  have h : A.Accounts m.context S p
      (Eval.inContext (·.enterFile id file) (·.leaveFile m.context.scope m.context.file) x) :=
    inContext hb rfl hx
  exact h m rfl hS hm

theorem inFunction {name : String} (hx : A.Accounts (c.enterFunction name) S p x) :
    A.Accounts c S p (Eval.inFunction name x) := by
  refine inContext ?_ rfl hx
  simp only [Context.leaveFunction, Context.enterFunction, Discipline.tail_map_cons]

/-- A call records the active calls on an error. -/
theorem inCall {frame : CallFrame} (hframe : A.places S frame.location)
    (hx : ∀ calls, c.calls.push frame = .ok calls → A.Accounts (c.withCalls calls) S p x) :
    A.Accounts c S p (Eval.inCall frame x) := by
  intro m hc hS hm
  subst hc
  unfold Eval.inCall
  cases e : m.context.calls.push frame with
  -- A call too deep is refused before the frame is pushed.
  | error d =>
    have hd : d = (RuntimeFault.callDepth (m.context.calls.limit.getD 0)).toDiagnostic
        frame.location := by
      unfold CallStack.push at e
      split at e <;> cases e
      rfl
    subst hS
    refine .error rfl .refl hm (explains_of_fresh ?_ hframe)
    exact hd ▸ RuntimeFault.fresh_toDiagnostic ..
  | ok calls =>
    have h := hx calls e (m.inContext (m.context.withCalls calls)) rfl hS hm
    have hback {m' : Machine} (hc : m'.context = m.context.withCalls calls) :
        (Eval.overContext (fun c => c.withCalls c.calls.pop) m').context = m.context := by
      change m'.context.withCalls m'.context.calls.pop = _
      rw [hc]
      change m.context.withCalls calls.pop = _
      rw [CallStack.pop_push e]
      rfl
    dsimp only
    unfold Eval.inContext Eval.attaching
    change A.Ends _ _ p (x (Eval.overContext (·.withCalls calls) m)) at h
    generalize x (Eval.overContext (·.withCalls calls) m) = o at h
    cases h with
    | ok hc' hS' hm' ha => exact .ok (hback hc') hS' hm' ha
    | @error d m' hc' hS' hm' hd =>
      refine .error (hback hc') hS' hm' ?_
      -- The calls are attached while the frame is there, and it is popped then.
      have hcalls : m'.context.calls = calls := by rw [hc']; rfl
      have htrace : calls.Traces d := hd.trace
      rw [hcalls]
      refine ⟨htrace.pop e, fun hr => ?_⟩
      rw [CallStack.category_attach] at hr
      rw [CallStack.location_attach, CallStack.snippet_attach]
      exact hd.place hr
    | halt => exact .halt

end Accounts

/-- An error that leaves a call shows the calls, that one included. -/
theorem shows_of_inCall {m m' : Machine} {frame : CallFrame} {calls : CallStack} {d : Diagnostic}
    (hpush : m.context.calls.push frame = .ok calls)
    (hx : A.Accounts (m.context.withCalls calls) S p x) (hS : m.loaded = S) (hm : A.Holds S m)
    (he : Eval.inCall frame x m = .error d m') (hd : d.category = .runtime) : calls.Shows d := by
  have h := hx (m.inContext (m.context.withCalls calls)) rfl hS hm
  unfold Eval.inCall at he
  rw [hpush] at he
  dsimp only at he
  unfold Eval.inContext Eval.attaching at he
  change A.Ends _ _ p (x (Eval.overContext (·.withCalls calls) m)) at h
  generalize x (Eval.overContext (·.withCalls calls) m) = o at h he
  cases h with
  | ok => cases he
  | @error d₁ m₁ hc _ _ hd₁ =>
    cases he
    -- The calls are attached while the frame is still there.
    have hcalls : m₁.context.calls = calls := by rw [hc]; rfl
    have htrace : calls.Traces d₁ := hd₁.trace
    rw [hcalls] at hd ⊢
    refine htrace.shows_attach (by simpa using hd) ?_
    simp [CallStack.frames_push hpush]
  | halt => cases he

end Attribution

end ScriptLang
