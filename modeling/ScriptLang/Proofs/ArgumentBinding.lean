import ScriptLang.Proofs.CallDepth
import ScriptLang.Proofs.LaterScopes
import ScriptLang.Proofs.PlainValues
import ScriptLang.Proofs.ScopeFrame
import ScriptLang.Proofs.SetBoundary
import ScriptLang.Proofs.WellFormedTrees

/-!
# Binding of arguments

A call checks the number of its arguments before anything else. Then it makes a scope and binds
the parameters there, one after the other: to arguments as long as there are any, then to defaults,
which are computed in that scope, and the rest parameter to an array of what is left.

* `Machine.Receives` is the state in between: the scope of the call has the names bound so far.
* `Eval.BindsParams` tells how every parameter comes by its value and how the binding ends. There is
  no way to bind null for want of a default: a parameter without one stands before all those with
  one, so it has an argument (`Eval.exists_binds`).
* A default can assign to a parameter before it, through a function that is made in it. So the body
  need not find the values that were bound (`defaults_may_assign`), though it finds all names. A
  parameter keeps its value if no later default assigns to it (`Eval.BindsParams.keeps`).
* `arguments_are_bound` is the main statement.
-/

namespace ScriptLang

open Eval

/-! ### The scope of a call -/

/-- The names and kinds of bindings, in order. -/
def Scope.names (s : Scope) : List (String × DeclKind) := s.vars.toList.map fun e => (e.1, e.2.kind)

namespace Scope.Frame

variable {s s' : Scope}

theorem names (h : s.Frame s') : s'.names = s.names := by
  have hb := h.bindings
  unfold Scope.names
  generalize s.vars.toList = l at hb
  generalize s'.vars.toList = l' at hb
  induction hb with
  | nil => rfl
  | cons hab _ ih => simp [hab.1, hab.2.1, ih]

end Scope.Frame

namespace Machine

/-- **Receives.** The current scope is that of a call, and has these names so far. -/
structure Receives (home id : ScopeId) (names : List String) (m : Machine) : Prop where
  scope : m.context.scope = id
  lt_size : id < m.scopes.table.size
  inner : id ≠ Scopes.root
  parent : (m.scopes.get id).parent = some home
  role : (m.scopes.get id).role = .function
  names : (m.scopes.get id).names = names.map fun n => (n, .set)

/-- The machine with one more name in a scope. -/
def binding (m : Machine) (id : ScopeId) (name : String) (v : Value) : Machine :=
  m.perform (.bind id name ⟨v, .set⟩)

/-- The machine in which a call begins, with a scope of its own. -/
def called (m : Machine) (fn : FunctionDef) (home : ScopeId) : Machine :=
  (m.withChild home .function).inContext
    ((m.context.enterFunction fn.displayName).atScope m.scopes.table.size)

variable {m m' : Machine} {home id : ScopeId} {names : List String} {name : String}

theorem get_called (m : Machine) (fn : FunctionDef) (home : ScopeId) :
    (m.called fn home).scopes.get m.scopes.table.size =
      { parent := some home, role := .function } := Scopes.get_child_size m.scopes home .function

theorem receives_called (hm : home < m.scopes.table.size) (fn : FunctionDef) :
    (m.called fn home).Receives home m.scopes.table.size [] := by
  have hget := get_called m fn home
  refine ⟨rfl, ?_, Nat.ne_of_gt (Nat.zero_lt_of_lt hm), ?_, ?_, ?_⟩
  · change _ < (m.scopes.child home .function).2.table.size
    simp [Scopes.child]
  · rw [hget]
  · rw [hget]
  · rw [hget]
    rfl

namespace Receives

/-- What frames the scope keeps it ready for the next name. -/
theorem framed (hm : m.Receives home id names) (hc : m'.context = m.context)
    (hf : m.scopes.Frames none m'.scopes) : m'.Receives home id names := by
  have h := hf.2 id hm.lt_size hm.inner nofun
  exact ⟨(congrArg Context.scope hc).trans hm.scope, Nat.lt_of_lt_of_le hm.lt_size hf.1, hm.inner,
    h.parent.trans hm.parent, h.role.trans hm.role, h.names.trans hm.names⟩

theorem keys (hm : m.Receives home id names) : (m.scopes.get id).vars.keys = names := by
  have h := congrArg (List.map Prod.fst) hm.names
  simpa [Scope.names, OrderedMap.keys, Function.comp_def] using h

theorem get_binding (hm : m.Receives home id names) (name : String) (v : Value) :
    (m.binding id name v).scopes.get id =
      { m.scopes.get id with vars := (m.scopes.get id).vars.insert name ⟨v, .set⟩ } :=
  Scopes.get_modify_self hm.lt_size

theorem toList_binding (hm : m.Receives home id names) (hn : name ∉ names) (v : Value) :
    ((m.binding id name v).scopes.get id).vars.toList =
      (m.scopes.get id).vars.toList ++ [(name, ⟨v, .set⟩)] := by
  rw [hm.get_binding]
  exact OrderedMap.toList_insert_of_not_mem (hm.keys ▸ hn) _

theorem binding (hm : m.Receives home id names) (hn : name ∉ names) (v : Value) :
    (m.binding id name v).Receives home id (names ++ [name]) := by
  have hget := hm.get_binding name v
  refine ⟨hm.scope, ?_, hm.inner, ?_, ?_, ?_⟩
  · simpa [Machine.binding, Machine.perform, Scopes.perform, Scopes.bind] using hm.lt_size
  · rw [hget]
    exact hm.parent
  · rw [hget]
    exact hm.role
  · rw [Scope.names, hm.toList_binding hn, List.map_append, List.map_append]
    exact congrArg (· ++ _) hm.names

theorem own?_binding (hm : m.Receives home id names) (name : String) (v : Value) (k : String) :
    (m.binding id name v).scopes.own? id k =
      if k = name then some ⟨v, .set⟩ else m.scopes.own? id k := by
  rw [Scopes.own?, hm.get_binding]
  exact OrderedMap.get?_insert _ name _ k

/-- A name that the scope does not have can be declared. -/
theorem define (hm : m.Receives home id names) (hn : name ∉ names) (v : Value) (loc : Location) :
    Eval.define name v .set loc m = .ok () (m.binding id name v) := by
  have hnone : (m.scopes.get id).vars.get? name = none := by
    rw [← Option.not_isSome_iff_eq_none, OrderedMap.isSome_get?_iff, hm.keys]
    exact hn
  change defineIn m.context.scope name v .set loc m = _
  rw [hm.scope]
  refine alterScopes_of_plan ?_
  unfold Scopes.planDefine
  rw [hnone]

end Receives

end Machine

/-! ### Parameters, one after the other -/

/-- How a parameter comes by its value. -/
structure ParamBinding where
  param : Param
  value : Value
  /-- The machine in which the value is asked for. -/
  before : Machine
  /-- The machine in which the value is known. -/
  after : Machine

/-- **BindsParams.** Parameters are bound to arguments as long as there are any, and to their
defaults from then on. While this goes on, the scope of the call has the names of the parameters
before. It ends with the arguments that are left, or as a default does that gives no value. -/
inductive Eval.BindsParams (ev : Evaluator) (home id : ScopeId) :
    List String → List Param → List Value → Machine → List ParamBinding → Outcome (List Value) →
      Prop
  | done {names args m} (hm : m.Receives home id names) : BindsParams ev home id names [] args m []
    (.ok args m)
  | argument {names p ps v args m bs o} (hm : m.Receives home id names)
    (hrest : BindsParams ev home id (names ++ [p.name]) ps args (m.binding id p.name v) bs o) :
    BindsParams ev home id names (p :: ps) (v :: args) m (⟨p, v, m, m⟩ :: bs) o
  | default {names p ps e v m n bs o} (hm : m.Receives home id names) (he : p.default? = some e)
    (hv : ev.expr e m = .ok v n) (hn : n.Receives home id names)
    (hrest : BindsParams ev home id (names ++ [p.name]) ps [] (n.binding id p.name v) bs o) :
    BindsParams ev home id names (p :: ps) [] m (⟨p, v, m, n⟩ :: bs) o
  | error {names p ps e d m n} (hm : m.Receives home id names) (he : p.default? = some e)
    (hv : ev.expr e m = .error d n) : BindsParams ev home id names (p :: ps) [] m [] (.error d n)
  | halt {names p ps e r m n} (hm : m.Receives home id names) (he : p.default? = some e)
    (hv : ev.expr e m = .halt r n) : BindsParams ev home id names (p :: ps) [] m [] (.halt r n)

/-- The number of parameters that need an argument. -/
def requiredOf (ps : List Param) : Nat := (ps.filter (·.default?.isNone)).length

/-- Behind a parameter with a default, none needs an argument. -/
theorem requiredOf_le {p : Param} {ps : List Param} {count : Nat} (hd : DefaultsLast (p :: ps))
    (hr : requiredOf (p :: ps) ≤ count + 1) : requiredOf ps ≤ count := by
  unfold requiredOf at hr ⊢
  cases hp : p.default? with
  | none =>
    rw [List.filter_cons_of_pos (by rw [hp]; rfl), List.length_cons] at hr
    exact Nat.le_of_succ_le_succ hr
  | some e =>
    have hnone : ps.filter (·.default?.isNone) = [] := by
      refine List.filter_eq_nil_iff.mpr fun q hq => ?_
      have hq := List.rel_of_pairwise_cons hd hq (by rw [hp]; rfl)
      simpa [Option.isSome_iff_ne_none] using hq
    rw [hnone]
    exact Nat.zero_le _

namespace Eval

variable {ev : Evaluator} {home id : ScopeId} {names : List String} {ps : List Param}
  {args remaining : List Value} {m m' : Machine} {bs : List ParamBinding} {o : Outcome (List Value)}

/-- What an evaluator that frames scopes makes of an expression. -/
theorem receives_of_expr (hev : Discipline.frames.Evaluates ev) (hm : m.Receives home id names)
    {e : Expr} {v : Value} (hv : ev.expr e m = .ok v m') : m'.Receives home id names := by
  have h := (hev.expr m.context e).ends m rfl
  rw [hv] at h
  exact hm.framed h.1 h.2

/-- **Parameters.** Binding goes on in these ways and no others, where no parameter lacks both an
argument and a default. By induction on the parameters. -/
theorem exists_binds (hev : Discipline.frames.Evaluates ev) (hd : DefaultsLast ps)
    (hn : (names ++ ps.map (·.name)).Nodup) (hr : requiredOf ps ≤ args.length)
    (hm : m.Receives home id names) (loc : Location) :
    ∃ bs, BindsParams ev home id names ps args m bs (bindParams ev loc ps args m) := by
  induction ps generalizing names args m with
  | nil => exact ⟨[], .done hm⟩
  | cons p ps ih =>
    have hp : p.name ∉ names := fun hp =>
      List.disjoint_of_nodup_append hn hp List.mem_cons_self
    have hn' : ((names ++ [p.name]) ++ ps.map (·.name)).Nodup := by
      rwa [List.append_assoc]
    cases args with
    | cons v args =>
      -- There is an argument for the parameter, so its default is not looked at.
      obtain ⟨bs, hbs⟩ := ih (List.Pairwise.of_cons hd) hn' (requiredOf_le hd hr) (hm.binding hp v)
      have hnext : bindParams ev loc (p :: ps) (v :: args) m =
          bindParams ev loc ps args (m.binding id p.name v) := bind_of_ok (hm.define hp v loc)
      rw [hnext]
      exact ⟨_, .argument hm hbs⟩
    | nil =>
      cases he : p.default? with
      | none =>
        -- A parameter without either is one that needs an argument.
        rw [requiredOf, List.filter_cons_of_pos (by rw [he]; rfl)] at hr
        cases hr
      | some e =>
        have hnext : bindParams ev loc (p :: ps) [] m =
            (ev.expr e >>= fun v => do
              define p.name v .set loc
              bindParams ev loc ps [] : Eval (List Value)) m := by
          rw [bindParams]
          simp only [he]
        rw [hnext]
        cases hv : ev.expr e m with
        | ok v n =>
          -- Computing the default leaves the scope with the same names, whatever else it does.
          have hm' := receives_of_expr hev hm hv
          have hr' : requiredOf ps ≤ ([] : List Value).length :=
            requiredOf_le hd (hr.trans (Nat.zero_le 1))
          obtain ⟨bs, hbs⟩ := ih (List.Pairwise.of_cons hd) hn' hr' (hm'.binding hp v)
          rw [bind_of_ok hv, bind_of_ok (hm'.define hp v loc)]
          exact ⟨_, .default hm he hv hm' hbs⟩
        | error d n =>
          rw [bind_of_error hv]
          exact ⟨[], .error hm he hv⟩
        | halt r n =>
          rw [bind_of_halt hv]
          exact ⟨[], .halt hm he hv⟩

/-- What a binding that gives the arguments that are left has done. -/
theorem BindsParams.bound (h : BindsParams ev home id names ps args m bs (.ok remaining m')) :
    bs.map (·.param) = ps ∧ (bs.map (·.value)).take args.length = args.take ps.length ∧
      remaining = args.drop ps.length ∧ m'.Receives home id (names ++ ps.map (·.name)) := by
  generalize ho : Outcome.ok remaining m' = o at h
  induction h with
  | done hm =>
    cases ho
    exact ⟨rfl, by simp, rfl, by simpa using hm⟩
  | @argument names p ps v args m bs o hm hrest ih =>
    obtain ⟨hparams, hvalues, hremaining, hm'⟩ := ih ho
    refine ⟨by simp [hparams], by simp [hvalues], hremaining, ?_⟩
    simpa using hm'
  | default hm he hv hm' hrest ih =>
    obtain ⟨hparams, hvalues, hremaining, hlast⟩ := ih ho
    refine ⟨by simp [hparams], by simp, by simpa using hremaining, ?_⟩
    simpa using hlast
  | error => cases ho
  | halt => cases ho

/-- A name that is there keeps its value, if no default assigns to it. -/
theorem BindsParams.own?_eq (h : BindsParams ev home id names ps args m bs (.ok remaining m'))
    (hn : (names ++ ps.map (·.name)).Nodup) {name : String} (hname : name ∈ names)
    (hs : ∀ b ∈ bs, b.after.scopes.own? id name = b.before.scopes.own? id name) :
    m'.scopes.own? id name = m.scopes.own? id name := by
  generalize ho : Outcome.ok remaining m' = o at h
  induction h with
  | done hm =>
    cases ho
    rfl
  | argument hm hrest ih =>
    obtain ⟨-, hs⟩ := List.forall_mem_cons.mp hs
    have hp := List.disjoint_of_nodup_append hn hname
    rw [ih (by rwa [List.append_assoc]) (List.mem_append_left _ hname) hs ho,
      hm.own?_binding, if_neg (List.ne_of_not_mem_cons hp)]
  | default hm he hv hm' hrest ih =>
    obtain ⟨hsame, hs⟩ := List.forall_mem_cons.mp hs
    have hp := List.disjoint_of_nodup_append hn hname
    rw [ih (by rwa [List.append_assoc]) (List.mem_append_left _ hname) hs ho,
      hm'.own?_binding, if_neg (List.ne_of_not_mem_cons hp), hsame]
  | error => cases ho
  | halt => cases ho

/-- **Kept values.** A parameter has the value that it was bound to, if no later default assigns to
it. -/
theorem BindsParams.keeps (h : BindsParams ev home id names ps args m bs (.ok remaining m'))
    (hn : (names ++ ps.map (·.name)).Nodup) {bs₁ bs₂ : List ParamBinding} {b : ParamBinding}
    (hb : bs = bs₁ ++ b :: bs₂)
    (hs : ∀ b' ∈ bs₂,
      b'.after.scopes.own? id b.param.name = b'.before.scopes.own? id b.param.name) :
    m'.scopes.own? id b.param.name = some ⟨b.value, .set⟩ := by
  generalize ho : Outcome.ok remaining m' = o at h
  -- By induction on the binding, up to the one in question: behind it the name is among those that
  -- the scope has, and what is bound later has other names.
  induction h generalizing bs₁ with
  | done hm => simp at hb
  | argument hm hrest ih =>
    have hn' := hn
    rw [List.map_cons, List.append_cons] at hn'
    cases bs₁ with
    | nil =>
      cases hb
      subst ho
      rw [hrest.own?_eq hn' (List.mem_append_right _ (List.mem_singleton_self _)) hs,
        hm.own?_binding, if_pos rfl]
    | cons b₁ bs₁ =>
      cases hb
      exact ih hn' rfl ho
  | default hm he hv hm' hrest ih =>
    have hn' := hn
    rw [List.map_cons, List.append_cons] at hn'
    cases bs₁ with
    | nil =>
      cases hb
      subst ho
      rw [hrest.own?_eq hn' (List.mem_append_right _ (List.mem_singleton_self _)) hs,
        hm'.own?_binding, if_pos rfl]
    | cons b₁ bs₁ =>
      cases hb
      exact ih hn' rfl ho
  | error => cases ho
  | halt => cases ho

end Eval

/-! ### The rest parameter -/

/-- The machine in which the rest parameter, if there is one, is bound to a new array. -/
def Machine.withRest (m : Machine) (id : ScopeId) (rest? : Option String) (args : List Value) :
    Machine :=
  match rest? with
  | none => m
  | some name =>
    { m with heap := (m.heap.allocArray args.toArray).2 }.binding id name
      (.array m.heap.arrays.size)

namespace Machine.Receives

variable {m : Machine} {home id : ScopeId} {names : List String} {rest? : Option String}

/-- The new array changes nothing about the scope. -/
theorem withHeap (hm : m.Receives home id names) (h : Heap) :
    { m with heap := h }.Receives home id names :=
  ⟨hm.scope, hm.lt_size, hm.inner, hm.parent, hm.role, hm.names⟩

theorem bindRest (hm : m.Receives home id names) (hn : (names ++ rest?.toList).Nodup)
    (args : List Value) (loc : Location) :
    Eval.bindRest rest? args loc m = .ok () (m.withRest id rest? args) := by
  cases rest? with
  | none => rfl
  | some name =>
    have hname : name ∉ names := fun hname =>
      List.disjoint_of_nodup_append hn hname (List.mem_singleton_self name)
    exact (hm.withHeap _).define hname (.array m.heap.arrays.size) loc

theorem withRest (hm : m.Receives home id names) (hn : (names ++ rest?.toList).Nodup)
    (args : List Value) : (m.withRest id rest? args).Receives home id (names ++ rest?.toList) := by
  cases rest? with
  | none => exact (List.append_nil names).symm ▸ hm
  | some name =>
    have hname : name ∉ names := fun hname =>
      List.disjoint_of_nodup_append hn hname (List.mem_singleton_self name)
    exact (hm.withHeap _).binding hname _

theorem own?_withRest (hm : m.Receives home id names) (hn : (names ++ rest?.toList).Nodup)
    (args : List Value) {k : String} (hk : k ∈ names) :
    (m.withRest id rest? args).scopes.own? id k = m.scopes.own? id k := by
  cases rest? with
  | none => rfl
  | some name =>
    have hne : k ≠ name := fun hne =>
      List.disjoint_of_nodup_append hn hk (hne ▸ List.mem_singleton_self name)
    exact ((hm.withHeap _).own?_binding name _ k).trans (if_neg hne)

theorem own?_rest (hm : m.Receives home id names) (args : List Value) (name : String) :
    (m.withRest id (some name) args).scopes.own? id name =
      some ⟨.array m.heap.arrays.size, .set⟩ :=
  ((hm.withHeap _).own?_binding name _ name).trans (if_pos rfl)

end Machine.Receives

/-! ### Calls -/

namespace Eval

variable {ev : Evaluator} {fn : FunctionDef} {home : ScopeId} {args : List Value} {m : Machine}

/-- The body of a function, as a call on the call stack. -/
def callBody (ev : Evaluator) (fn : FunctionDef) (loc : Location) : Eval Value :=
  inCall ⟨fn.displayName, loc⟩ do (← runStatements ev fn.body).atBoundary fun _ => .null

/-- What a call does in its scope. -/
def callInside (ev : Evaluator) (fn : FunctionDef) (args : List Value) (loc : Location) :
    Eval Value := do
  let remaining ← bindParams ev loc fn.params args
  bindRest fn.rest? remaining loc
  callBody ev fn loc

theorem obeys_callInside {D : Discipline} (hD : D.Lawful) (hev : D.Evaluates ev) {c : Context}
    (hb : ∀ calls, ∀ s ∈ fn.body, D.fits (c.withCalls calls) s) (loc : Location) :
    D.Obeys c (some c.scope) (callInside ev fn args loc) := by
  refine .andThen hD (Discipline.obeys_bindParams hD hev loc fn.params args) fun remaining => ?_
  refine .andThen hD (Discipline.obeys_bindRest hD fn.rest? remaining loc) fun _ => ?_
  refine .inCall hD fun calls => .andThen hD ?_ fun flow => .of_local hD (flow.local_atBoundary _)
  exact Discipline.obeys_runStatements (c := c.withCalls calls) hD hev (hb calls)

theorem callClosure_few (h : args.length < fn.required) (loc : Location) :
    callClosure ev fn home args loc m =
      fail (.tooFewArguments fn.displayName fn.required args.length) loc m := by
  unfold callClosure
  rw [if_pos h]

theorem callClosure_many (hr : fn.rest? = none) (h : fn.params.length < args.length)
    (loc : Location) : callClosure ev fn home args loc m =
      fail (.tooManyArguments fn.displayName fn.params.length args.length) loc m := by
  have hrequired : fn.required ≤ fn.params.length := List.length_filter_le ..
  unfold callClosure
  rw [if_neg (by omega), if_pos (by simp [hr, h])]

/-- A call that takes its arguments goes on in a scope of its own. -/
theorem callClosure_accepted (ha : fn.Accepts args.length) (hev : Discipline.frames.Evaluates ev)
    (loc : Location) : callClosure ev fn home args loc m =
      (callInside ev fn args loc (m.called fn home)).backIn m.context := by
  have hD := Discipline.frames_oblivious.toLawful
  let inside (id : ScopeId) : Eval Value := inScope id (callInside ev fn args loc)
  have hcall : callClosure ev fn home args loc =
      inFunction fn.displayName (newChildOf home .function >>= inside) := by
    have hmost : ¬ (fn.rest?.isNone && decide (fn.params.length < args.length)) = true := by
      intro h
      simp only [Bool.and_eq_true, Option.isNone_iff_eq_none, decide_eq_true_eq] at h
      exact absurd (ha.most h.1) (Nat.not_le.mpr h.2)
    unfold callClosure
    rw [if_neg (Nat.not_lt.mpr ha.least), if_neg hmost]
    rfl
  have hinside (c : Context) (id : ScopeId) : Discipline.frames.Obeys c (some id) (inside id) :=
    .inScope hD (obeys_callInside hD hev (fun _ _ _ => trivial) loc)
  have houter := (Discipline.obeys_callClosure hD hev fn home args loc).ends m rfl
  -- The context of the caller is restored twice: behind the scope, and behind the function.
  rw [hcall] at houter ⊢
  refine (inContext_eq_backIn houter).trans ?_
  have hinner := (hinside _ m.scopes.table.size).ends
    ((m.withChild home .function).inContext (m.context.enterFunction fn.displayName)) rfl
  change ((inside m.scopes.table.size) ((m.withChild home .function).inContext
    (m.context.enterFunction fn.displayName))).backIn m.context = _
  exact (congrArg (Outcome.backIn m.context) (inContext_eq_backIn hinner)).trans
    (Outcome.backIn_backIn ..)

/-- After a call that takes its arguments there are more scopes, so it fails in another machine. -/
theorem callClosure_accepted_ne (ha : fn.Accepts args.length)
    (hev : Discipline.frames.Evaluates ev) (loc : Location) (d : Diagnostic) :
    callClosure ev fn home args loc m ≠ .error d m := by
  have hD := Discipline.frames_oblivious.toLawful
  have hobeys : Discipline.frames.Obeys (m.called fn home).context (some m.scopes.table.size)
      (callInside ev fn args loc) := obeys_callInside hD hev (fun _ _ _ => trivial) loc
  have hends := hobeys.ends (m.called fn home) rfl
  rw [callClosure_accepted ha hev]
  intro h
  cases hinside : callInside ev fn args loc (m.called fn home) with
  | error d' n =>
    -- The scope that was made for the call is still in the table.
    rw [hinside] at h hends
    have hscopes : n.scopes = m.scopes := congrArg (·.machine.scopes) h
    have hsize : (m.called fn home).scopes.table.size = m.scopes.table.size + 1 := by
      simp [Machine.called, Machine.inContext, Machine.withChild, Scopes.child]
    have hle := hends.2.1
    rw [hscopes] at hle
    omega
  | ok v n =>
    rw [hinside] at h
    cases h
  | halt r n =>
    rw [hinside] at h
    cases h

/-- **Ready.** The body of a call starts in the machine `start`: in the scope of the call, with the
names of the parameters and the rest parameter. A parameter has the value that it was bound to, if
no later default assigns to it, and the rest parameter has a new array of the arguments that are
left. -/
structure Ready (fn : FunctionDef) (home id : ScopeId) (args : List Value)
    (bs : List ParamBinding) (bound start : Machine) : Prop where
  params : bs.map (·.param) = fn.params
  arguments : (bs.map (·.value)).take args.length = args.take fn.params.length
  left : start = bound.withRest id fn.rest? (args.drop fn.params.length)
  scope : start.Receives home id (fn.params.map (·.name) ++ fn.rest?.toList)
  keeps : ∀ {bs₁ bs₂ : List ParamBinding} {b : ParamBinding}, bs = bs₁ ++ b :: bs₂ →
    (∀ b' ∈ bs₂, b'.after.scopes.own? id b.param.name = b'.before.scopes.own? id b.param.name) →
    start.scopes.own? id b.param.name = some ⟨b.value, .set⟩
  rest : ∀ {name : String}, fn.rest? = some name →
    start.scopes.own? id name = some ⟨.array bound.heap.arrays.size, .set⟩ ∧
      start.heap.array bound.heap.arrays.size = (args.drop fn.params.length).toArray

/-- What is left after the parameters goes to the rest parameter, and then the body starts. -/
theorem BindsParams.ready {id : ScopeId} {remaining : List Value} {bs : List ParamBinding}
    {n : Machine} (h : BindsParams ev home id [] fn.params args m bs (.ok remaining n))
    (hn : (fn.params.map (·.name) ++ fn.rest?.toList).Nodup) (loc : Location) :
    Ready fn home id args bs n (n.withRest id fn.rest? remaining) ∧
      bindRest fn.rest? remaining loc n = .ok () (n.withRest id fn.rest? remaining) := by
  obtain ⟨hparams, harguments, rfl, hreceives⟩ := h.bound
  rw [List.nil_append] at hreceives
  refine ⟨⟨hparams, harguments, rfl, hreceives.withRest hn _, fun {bs₁ bs₂ b} hb hs => ?_,
    fun {name} hname => ?_⟩, hreceives.bindRest hn _ loc⟩
  · have hmem : b.param.name ∈ fn.params.map (·.name) := by
      rw [← hparams, hb]
      simp
    rw [hreceives.own?_withRest hn _ hmem]
    exact h.keeps (List.Nodup.of_append_left hn) hb hs
  · rw [hname]
    exact ⟨hreceives.own?_rest _ name, n.heap.array_allocArray _⟩

end Eval

/-- There are too few arguments, too many, or as many as the function accepts. -/
theorem FunctionDef.few_or_many_or_accepts (fn : FunctionDef) (count : Nat) :
    count < fn.required ∨ (fn.rest? = none ∧ fn.params.length < count) ∨ fn.Accepts count := by
  by_cases hleast : count < fn.required
  · exact .inl hleast
  · by_cases hmost : fn.rest? = none ∧ fn.params.length < count
    · exact .inr (.inl hmost)
    · exact .inr (.inr ⟨Nat.not_lt.mp hleast, fun hr => Nat.not_lt.mp fun h => hmost ⟨hr, h⟩⟩)

/-! ### The main statement -/

/-- **Arguments are bound.** A call of a function that was read from a text, whose names are
distinct, fails at once where it is given too few or too many arguments, before it makes a scope.
Else it binds its parameters in a new scope inside of that of the function, one after the other, and
its body starts when all are bound; where a default gives no value, the call ends as the default
does. -/
theorem arguments_are_bound {platform : Platform} {tokens : List Token} {file : String}
    {p : Program} {c : Cursor} (hp : Program.parse platform tokens file = .ok (p, c))
    {fn : FunctionDef} (hfn : p.Has (.function fn))
    (hn : (fn.params.map (·.name) ++ fn.rest?.toList).Nodup) {m : Machine} {home : ScopeId}
    (hm : home < m.scopes.table.size) (n : Nat) (args : List Value) (loc : Location) :
    let ev := Evaluator.ofBound n
    let call := Eval.callClosure ev fn home args loc m
    let id := m.scopes.table.size
    ((∃ d, call = .error d m ∧ d.code = "FUNC001") ↔ args.length < fn.required) ∧
    ((∃ d, call = .error d m ∧ d.code = "FUNC002") ↔
      fn.rest? = none ∧ fn.params.length < args.length) ∧
    (fn.Accepts args.length → ∃ bs o,
      Eval.BindsParams ev home id [] fn.params args (m.called fn home) bs o ∧
        match o with
        | .ok _ bound => ∃ start, Eval.Ready fn home id args bs bound start ∧
            call = (Eval.callBody ev fn loc start).backIn m.context
        | .error d m' => call = .error d (m'.inContext m.context)
        | .halt r m' => call = .halt r m') := by
  intro ev call id
  have hev := Discipline.evaluates_ofBound Discipline.frames_oblivious.toLawful
    Discipline.frames_oblivious.imports n
  have hlast : DefaultsLast fn.params := by
    obtain ⟨i, j, -, -, hocc⟩ := (Program.occupies_parse hp).2.has hfn
    exact hocc.wellFormed
  have hle : fn.required ≤ fn.params.length := List.length_filter_le ..
  have hfew (h : args.length < fn.required) : ∃ d, call = .error d m ∧ d.code = "FUNC001" :=
    ⟨_, callClosure_few h loc, rfl⟩
  have hmany (h : fn.rest? = none ∧ fn.params.length < args.length) :
      ∃ d, call = .error d m ∧ d.code = "FUNC002" := ⟨_, callClosure_many h.1 h.2 loc, rfl⟩
  have hcases := fn.few_or_many_or_accepts args.length
  -- Of the three kinds of calls, each fails at once with its own code or does not.
  refine ⟨⟨fun ⟨d, hd, hcode⟩ => ?_, hfew⟩, ⟨fun ⟨d, hd, hcode⟩ => ?_, hmany⟩, fun ha => ?_⟩
  · rcases hcases with h | h | ha
    · exact h
    · obtain ⟨d', hd', hcode'⟩ := hmany h
      cases hd.symm.trans hd'
      exact absurd (hcode.symm.trans hcode') (by decide)
    · exact absurd hd (callClosure_accepted_ne ha hev loc d)
  · rcases hcases with h | h | ha
    · obtain ⟨d', hd', hcode'⟩ := hfew h
      cases hd.symm.trans hd'
      exact absurd (hcode.symm.trans hcode') (by decide)
    · exact h
    · exact absurd hd (callClosure_accepted_ne ha hev loc d)
  · have hreceives := Machine.receives_called hm fn
    obtain ⟨bs, hbs⟩ := exists_binds hev hlast
      (by simpa using List.Nodup.of_append_left hn) ha.least hreceives loc
    refine ⟨bs, _, hbs, ?_⟩
    have hcall : call = (callInside ev fn args loc (m.called fn home)).backIn m.context :=
      callClosure_accepted ha hev loc
    cases e : bindParams ev loc fn.params args (m.called fn home) with
    | ok remaining bound =>
      rw [e] at hbs
      obtain ⟨hready, hrest⟩ := hbs.ready hn loc
      refine ⟨_, hready, ?_⟩
      rw [hcall, callInside, bind_of_ok e, bind_of_ok hrest]
    | error d m' =>
      dsimp only
      rw [hcall, callInside, bind_of_error e]
      rfl
    | halt r m' =>
      dsimp only
      rw [hcall, callInside, bind_of_halt e]
      rfl

/-- What was read, without the end of the reading. -/
theorem Program.exists_parse {platform : Platform} {tokens : List Token} {file : String}
    {p : Program} (h : (Program.parse platform tokens file).map (·.1) = .ok p) :
    ∃ c, Program.parse platform tokens file = .ok (p, c) := by
  cases e : Program.parse platform tokens file with
  | error _ =>
    rw [e] at h
    cases h
  | ok read =>
    rw [e] at h
    cases h
    exact ⟨read.2, rfl⟩

/-- A function with a parameter and a rest parameter, called with two values. -/
theorem arguments_are_bound_rest :
    ∃ tokens p c, Program.parse .ample tokens "a" = .ok (p, c) ∧ ∃ fn, p.Has (.function fn) ∧
      (fn.params.map (·.name) ++ fn.rest?.toList).Nodup ∧
      Scopes.root < ({} : Machine).scopes.table.size ∧ fn.Accepts 2 ∧
      ∃ start, start.scopes.own? 1 "a" = some ⟨.null, .set⟩ ∧
        start.scopes.own? 1 "rest" = some ⟨.array 0, .set⟩ ∧
        start.heap.array 0 = #[.bool true] ∧
        Eval.callClosure (.ofBound 1) fn Scopes.root [.null, .bool true] default {} =
          (Eval.callBody (.ofBound 1) fn default start).backIn {} := by
  let tokens : List Token := [(.keyword, "function"), (.identifier, "f"), (.leftParen, "("),
    (.identifier, "a"), (.comma, ","), (.spread, "..."), (.identifier, "rest"), (.rightParen, ")"),
    (.keyword, "end")].map fun e => ⟨e.1, e.2, .nowhere, 1, 1, "a"⟩
  let here : Location := ⟨"a", 1, 1, .nowhere⟩
  let fn : FunctionDef := .mk (some "f") [.mk "a" none] (some "rest") [] here
  let p : Program := ⟨[.function here fn false], here⟩
  have hread : (Program.parse .ample tokens "a").map (·.1) = .ok p := by cbv
  obtain ⟨c, hparse⟩ := Program.exists_parse hread
  have hinside : Construct.function fn ∈ (Construct.stmt (.function here fn false)).children :=
    List.mem_singleton_self _
  have hfn : p.Has (.function fn) := (Construct.has_of_mem List.mem_cons_self).tail hinside
  have hnames : (fn.params.map (·.name) ++ fn.rest?.toList).Nodup := by decide
  have haccepts : fn.Accepts 2 := ⟨by decide, fun h => by cases h⟩
  have hroot : Scopes.root < ({} : Machine).scopes.table.size := by decide
  obtain ⟨-, -, hcall⟩ := arguments_are_bound hparse hfn hnames hroot 1 [.null, .bool true] default
  obtain ⟨bs, o, hbinds, hend⟩ := hcall haccepts
  refine ⟨tokens, p, c, hparse, fn, hfn, hnames, hroot, haccepts, ?_⟩
  cases hbinds with
  | argument _ hrest =>
    cases hrest with
    | done _ =>
      obtain ⟨start, hready, hcall⟩ := hend
      have hfirst := hready.keeps (List.nil_append _).symm (List.forall_mem_nil _)
      have hrest := hready.rest rfl
      exact ⟨start, hfirst, hrest.1, hrest.2, hcall⟩

/-- `function f(a, b: (fn -> set a null end)?.())`, with the body `return a`. -/
def assigningDefault (here : Location) : FunctionDef :=
  let assign : FunctionDef :=
    .mk none [] none [.declare here .set (.name "a") (.literal here .null) false] here
  .mk (some "f") [.mk "a" none, .mk "b" (some (.call here (.function here assign) [] true))] none
    [.giveBack here (some (.ident here "a"))] here

/-- **Defaults may assign.** The first parameter is given the value true, but the default of the
second one sets it to null before the body starts, and the function returns null. -/
theorem defaults_may_assign :
    ∃ here tokens p c, Program.parse .ample tokens "a" = .ok (p, c) ∧
      p.Has (.function (assigningDefault here)) ∧
      ((assigningDefault here).params.map (·.name) ++ (assigningDefault here).rest?.toList).Nodup ∧
      Scopes.root < ({} : Machine).scopes.table.size ∧ (assigningDefault here).Accepts 1 ∧
      (∃ bound, Eval.bindParams (.ofBound 6) here (assigningDefault here).params [.bool true]
          (({} : Machine).called (assigningDefault here) Scopes.root) = .ok [] bound ∧
        bound.scopes.bindings 1 = [("a", .null), ("b", .null)]) ∧
      ∃ m, Eval.callClosure (.ofBound 6) (assigningDefault here) Scopes.root [.bool true] here {} =
        .ok .null m := by
  let here : Location := ⟨"a", 1, 1, .nowhere⟩
  let fn := assigningDefault here
  let tokens : List Token := [(.keyword, "function"), (.identifier, "f"), (.leftParen, "("),
    (.identifier, "a"), (.comma, ","), (.identifier, "b"), (.colon, ":"), (.leftParen, "("),
    (.keyword, "fn"), (.operator, "->"), (.keyword, "set"), (.identifier, "a"), (.null, "null"),
    (.keyword, "end"), (.rightParen, ")"), (.operator, "?."), (.leftParen, "("),
    (.rightParen, ")"), (.rightParen, ")"), (.keyword, "return"), (.identifier, "a"),
    (.keyword, "end")].map fun e => ⟨e.1, e.2, .nowhere, 1, 1, "a"⟩
  let p : Program := ⟨[.function here fn false], here⟩
  have hread : (Program.parse .ample tokens "a").map (·.1) = .ok p := by cbv
  obtain ⟨c, hparse⟩ := Program.exists_parse hread
  have hinside : Construct.function fn ∈ (Construct.stmt (.function here fn false)).children :=
    List.mem_singleton_self _
  have hfn : p.Has (.function fn) := (Construct.has_of_mem List.mem_cons_self).tail hinside
  have hbound : (Eval.bindParams (.ofBound 6) here fn.params [.bool true]
      (({} : Machine).called fn Scopes.root)).result? = some [] := by cbv
  have hbindings : (Eval.bindParams (.ofBound 6) here fn.params [.bool true]
      (({} : Machine).called fn Scopes.root)).machine.scopes.bindings 1 =
        [("a", .null), ("b", .null)] := by cbv
  have hcall : (Eval.callClosure (.ofBound 6) fn Scopes.root [.bool true] here {}).result? =
      some .null := by cbv
  exact ⟨here, tokens, p, c, hparse, hfn, by decide, by decide, ⟨by decide, fun _ => by decide⟩,
    ⟨_, Outcome.eq_of_result? hbound, hbindings⟩, _, Outcome.eq_of_result? hcall⟩

end ScriptLang
