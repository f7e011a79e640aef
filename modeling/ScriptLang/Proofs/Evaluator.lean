import ScriptLang.Proofs.ConfinedLibrary
import ScriptLang.Proofs.Discipline
import ScriptLang.Proofs.Steps

/-!
# The evaluator keeps every lawful discipline

The walk over the rules of the language, done once. The rules are written over a given evaluator, so
each lemma assumes that the three computations of that evaluator obey (`Discipline.Evaluates`) and
shows that the rule does. The lemmas follow the files of the evaluator from the leaves to the three
rules that call each other:

* `Discipline.obeys_expression`, `Discipline.obeys_statement` and `Discipline.obeys_callValue` — the
  three rules;
* `Discipline.evaluates_ofBound` — the evaluator obeys at every depth, by induction on the depth;
* `Discipline.obeys_interpretOver` and `Discipline.obeys_callFunction` — so do whole programs and
  calls from outside;
* `Discipline.obeys_serve` — and so does a machine that is asked more than once, whether or not what
  was asked before went well. `Machine.serve` are such requests one after the other.

Two things carry the walk. Expressions and calls are shown to bind nothing at all in a scope that
exists (`none`), which is stronger than what a statement needs and is widened where it stands in
one. And every block, call, case and round binds its names in a scope that it makes itself, so the
rule for new scopes (`Obeys.newChildOf_andThen`) hides them.
-/

namespace ScriptLang.Discipline

open Eval

variable {D : Discipline} (hD : D.Lawful) {ev : Evaluator} (hev : D.Evaluates ev) {c : Context}
include hD hev

attribute [local simp] Stmt.parts

/-! ### Arguments and callees -/

theorem obeys_argumentsOnto (done : List Value) (elements : List Element) :
    D.Obeys c none (argumentsOnto ev done elements) := by
  -- On the arguments still to come, whatever was computed before.
  induction elements generalizing done with
  | nil => exact .of_local hD (.of_pure _)
  | cons e rest ih =>
    cases e with
    | item e => exact (hev.expr c e).andThen hD fun v => ih (v :: done)
    | spread e =>
      refine (hev.expr c e).andThen hD fun v => ?_
      exact .andThen hD (.of_confined hD (confined_spread ..)) fun vs => ih _

theorem obeys_callExpr (callee : Expr) (args : List Element) (safe : Bool) (loc : Location) :
    D.Obeys c none (callExpr ev callee args safe loc) := by
  -- A safe call of null gives null before its arguments are computed.
  refine (hev.expr c callee).andThen hD fun f => .ite (.of_local hD (.of_pure _)) ?_
  refine .andThen hD (.of_confined hD (confined_requireCallable ..)) fun _ => ?_
  exact (obeys_argumentsOnto hD hev [] args).andThen hD fun vs => hev.call ..

/-! ### Expressions -/

theorem obeys_elementsOnto (done : Array Value) (items : List Element) :
    D.Obeys c none (elementsOnto ev done items) := by
  induction items generalizing done with
  | nil => exact .of_local hD (.of_pure _)
  | cons e rest ih =>
    cases e with
    | item e => exact (hev.expr c e).andThen hD fun v => ih (done.push v)
    | spread e =>
      refine (hev.expr c e).andThen hD fun v => ?_
      exact .andThen hD (.of_confined hD (confined_spread ..)) fun vs => ih _

theorem obeys_entriesOnto (done : OrderedMap Value) (entries : List Entry) :
    D.Obeys c none (entriesOnto ev done entries) := by
  induction entries generalizing done with
  | nil => exact .of_local hD (.of_pure _)
  | cons e rest ih =>
    cases e with
    | property key e => exact (hev.expr c e).andThen hD fun v => ih (done.insert key v)
    | spread e =>
      refine (hev.expr c e).andThen hD fun v => ?_
      split
      · exact .andThen hD (.of_local hD (.of_lookHeap _)) fun entries => ih _
      · exact .of_local hD (.of_fail ..)

theorem obeys_partsOnto (done : String) (parts : List Part) :
    D.Obeys c none (partsOnto ev done parts) := by
  induction parts generalizing done with
  | nil => exact .of_local hD (.of_pure _)
  | cons p rest ih =>
    cases p with
    | text t => exact ih (done ++ t)
    | expr e =>
      refine (hev.expr c e).andThen hD fun v => ?_
      exact .andThen hD (.of_local hD (local_print v)) fun t => ih (done ++ t)

/-- **Expressions.** Operands are evaluated in turn, and what is done with their values is local. -/
theorem obeys_expression (e : Expr) : D.Obeys c none (expression ev e) := by
  cases e with
  | ident loc name => exact .of_confined hD (confined_nameValue name loc)
  | literal loc l => exact .of_local hD (.of_pure _)
  | binary loc op l r =>
    refine (hev.expr c l).andThen hD fun a => (hev.expr c r).andThen hD fun b => ?_
    exact .of_confined hD (confined_combine op a b loc)
  | unary loc op e =>
    exact (hev.expr c e).andThen hD fun v => .of_confined hD (confined_applyUnary op v loc)
  | array loc items =>
    refine (obeys_elementsOnto hD hev #[] items).andThen hD fun vs => ?_
    exact .of_local hD (local_newArray vs)
  | object loc entries =>
    refine (obeys_entriesOnto hD hev .empty entries).andThen hD fun es => ?_
    exact .of_local hD (local_newObject es)
  | property loc e name safe =>
    exact (hev.expr c e).andThen hD fun v => .of_confined hD (confined_memberOf v name safe loc)
  | index loc e index safe =>
    -- A safe element of null is null before its index is computed.
    refine (hev.expr c e).andThen hD fun v => .ite (.of_local hD (.of_pure _)) ?_
    exact (hev.expr c index).andThen hD fun key => .of_confined hD (confined_elementOf v key _)
  | member loc module name => exact .of_confined hD (confined_moduleMember module name loc)
  | call loc callee args safe => exact obeys_callExpr hD hev callee args safe loc
  | template loc parts =>
    exact (obeys_partsOnto hD hev "" parts).andThen hD fun t => .of_local hD (.of_pure _)
  | function loc fn => exact .of_local hD (local_newClosure fn)
  | inlineIf loc test yes no =>
    exact (hev.expr c test).andThen hD fun v => .ite (hev.expr c yes) (hev.expr c no)
  | pipe loc e callee args =>
    refine (hev.expr c e).andThen hD fun v => (hev.expr c callee).andThen hD fun f => ?_
    refine .andThen hD (.of_confined hD (confined_requireCallable ..)) fun _ => ?_
    exact (obeys_argumentsOnto hD hev [] args).andThen hD fun vs => hev.call ..

/-! ### Bodies -/

omit hev in
/-- Functions declared in a body are bound in the scope that the body runs in. -/
theorem obeys_hoist (body : List Stmt) : D.Obeys c (some c.scope) (hoist body) := by
  induction body with
  | nil => exact .of_local hD (.of_pure _)
  | cons s rest ih =>
    cases s with
    | function loc fn exported =>
      unfold hoist
      split
      -- A function without a name is not bound ahead.
      · exact ih
      · refine .andThen hD (.of_local hD (local_declared _)) fun known => .ite ih ?_
        refine .andThen hD (.of_local hD (local_newClosure fn)) fun v => ?_
        exact .andThen hD (.define hD ..) fun _ => ih
    -- Nothing but function declarations is bound ahead.
    | _ => exact ih

theorem obeys_runFrom {body : List Stmt} (hb : ∀ s ∈ body, D.fits c s) (last : Value) :
    D.Obeys c (some c.scope) (runFrom ev body last) := by
  induction body generalizing last with
  | nil => exact .of_local hD (.of_pure _)
  | cons s rest ih =>
    -- A statement that binds nothing may stand where names may be bound.
    have hs : D.Obeys c (some c.scope) (ev.stmt s) := by
      have h := hev.stmt c s (hb s (by simp))
      unfold Stmt.room at h
      split at h
      · exact h
      · exact h.widen hD
    refine hs.andThen hD fun flow => ?_
    cases flow with
    | normal v => exact ih (fun s' h => hb s' (by simp [h])) v
    | _ => exact .of_local hD (.of_pure _)

theorem obeys_runStatements {body : List Stmt} (hb : ∀ s ∈ body, D.fits c s) :
    D.Obeys c (some c.scope) (runStatements ev body) :=
  .andThen hD (obeys_hoist hD body) fun _ => obeys_runFrom hD hev hb .null

/-- Statements in a block of the current scope. -/
theorem obeys_block {body : List Stmt} (hb : ∀ s ∈ body, D.fits c s) :
    D.Obeys c none (inBlock (runStatements ev body)) :=
  .inBlock hD fun id => obeys_runStatements (c := c.atScope id) hD hev fun s h =>
    hD.atScope (hb s h)

/-- Statements in a scope that was made for them. -/
theorem obeys_inScope {body : List Stmt} (hb : ∀ s ∈ body, D.fits c s) (id : ScopeId) :
    D.Obeys c (some id) (inScope id (runStatements ev body)) :=
  .inScope hD (obeys_runStatements (c := c.atScope id) hD hev fun s h => hD.atScope (hb s h))

/-! ### Calls -/

theorem obeys_bindParams (loc : Location) (params : List Param) (args : List Value) :
    D.Obeys c (some c.scope) (bindParams ev loc params args) := by
  induction params generalizing args with
  | nil => exact .of_local hD (.of_pure _)
  | cons p ps ih =>
    cases args with
    | cons v args => exact .andThen hD (.define hD ..) fun _ => ih args
    | nil =>
      -- No argument is left: the default is computed in the scope of the call, then bound.
      have hnext (v : Value) : D.Obeys c (some c.scope) (do
          define p.name v .set loc
          bindParams ev loc ps []) :=
        .andThen hD (.define hD ..) fun _ => ih []
      unfold bindParams
      dsimp only
      split
      · exact .andThen hD ((hev.expr c _).widen hD) hnext
      · exact .andThen hD (.of_local hD (.of_pure _)) hnext

omit hev in
theorem obeys_bindRest (name : Option String) (args : List Value) (loc : Location) :
    D.Obeys c (some c.scope) (bindRest name args loc) := by
  cases name with
  | none => exact .of_local hD (.of_pure _)
  | some name =>
    exact .andThen hD (.of_local hD (local_newList args)) fun v => .define hD ..

/-- **Calls.** Parameters and body are bound in a scope of the call, which is new. -/
theorem obeys_callClosure (fn : FunctionDef) (home : ScopeId) (args : List Value)
    (loc : Location) : D.Obeys c none (callClosure ev fn home args loc) := by
  -- A wrong number of arguments is an error before anything is made.
  refine .ite (.of_local hD (.of_fail ..)) (.ite (.of_local hD (.of_fail ..)) ?_)
  refine .inFunction hD (.newChildOf_andThen hD fun id => .inScope hD ?_)
  refine .andThen hD (obeys_bindParams hD hev loc fn.params args) fun remaining => ?_
  -- The call stack grows for the body alone, so defaults run below it.
  refine .andThen hD (obeys_bindRest hD fn.rest? remaining loc) fun _ => .inCall hD fun calls => ?_
  refine .andThen hD ?_ fun flow => .of_local hD (flow.local_atBoundary _)
  exact obeys_runStatements hD hev fun s _ => hD.body

/-! ### Library functions that call back -/

omit hD in
theorem obeys_callCallback (f : Argument.Callback) (args : List Value) (loc : Location) :
    D.Obeys c none (Argument.callCallback ev f args loc) :=
  hev.call ..

theorem obeys_visitFrom {σ τ : Type} (r : Ref) (whole : Value) (f : Argument.Callback)
    (loc : Location) (visit : σ → Nat → Value → Value → σ ⊕ τ) (bound i : Nat) (acc : σ) :
    D.Obeys c none (ArrayFn.visitFrom ev r whole f loc visit bound i acc) := by
  -- On the bound, since the callback may make the array longer.
  induction bound generalizing i acc with
  | zero => exact .of_local hD (.of_halt _)
  | succ bound ih =>
    refine .andThen hD (.of_local hD (local_element? r i)) fun item => ?_
    split
    · exact .of_local hD (.of_pure _)
    · refine .andThen hD (obeys_callCallback hev f _ loc) fun result => ?_
      split
      · exact ih ..
      · exact .of_local hD (.of_pure _)

theorem obeys_visitAll {σ τ : Type} (function : String) (args : List Value) (loc : Location)
    (start : σ) (visit : σ → Nat → Value → Value → σ ⊕ τ) :
    D.Obeys c none (ArrayFn.visitAll ev function args loc start visit) := by
  refine .andThen hD (.of_confined hD (Argument.confined_array ..)) fun r => ?_
  refine .andThen hD (.of_confined hD (Argument.confined_callback ..)) fun f => ?_
  exact obeys_visitFrom hD hev ..

theorem obeys_foldFrom (r : Ref) (whole : Value) (f : Argument.Callback) (loc : Location)
    (bound i : Nat) (acc : Value) :
    D.Obeys c none (ArrayFn.foldFrom ev r whole f loc bound i acc) := by
  induction bound generalizing i acc with
  | zero => exact .of_local hD (.of_halt _)
  | succ bound ih =>
    refine .andThen hD (.of_local hD (local_element? r i)) fun item => ?_
    split
    · exact .of_local hD (.of_pure _)
    · exact .andThen hD (obeys_callCallback hev f _ loc) fun acc => ih ..

theorem obeys_arrayFn (f : ArrayFn) (args : List Value) (loc : Location) :
    D.Obeys c none (f.run ev args loc) := by
  cases f with
  | map | filter | forEach =>
    exact .andThen hD (obeys_visitAll hD hev ..) fun out => .of_local hD (by simp)
  | find | findIndex =>
    refine .andThen hD (obeys_visitAll hD hev ..) fun out => ?_
    split <;> exact .of_local hD (.of_pure _)
  | reduce =>
    refine .andThen hD (.of_confined hD (Argument.confined_array ..)) fun r => ?_
    refine .andThen hD (.of_confined hD (Argument.confined_callback ..)) fun g => ?_
    split
    · exact obeys_foldFrom hD hev ..
    · refine .andThen hD (.of_local hD (local_element? r 0)) fun start => ?_
      split
      · exact obeys_foldFrom hD hev ..
      · exact .of_local hD (.of_refuse ..)
  -- The others call nothing back.
  | _ => exact .of_confined hD (ArrayFn.confined_run ev rfl args loc)

theorem obeys_mapEntries (whole : Value) (f : Argument.Callback) (loc : Location)
    (entries : List (String × Value)) (done : OrderedMap Value) :
    D.Obeys c none (ObjectFn.mapEntries ev whole f loc entries done) := by
  induction entries generalizing done with
  | nil => exact .of_local hD (.of_pure _)
  | cons e rest ih => exact .andThen hD (obeys_callCallback hev f _ loc) fun result => ih _

theorem obeys_objectFn (f : ObjectFn) (args : List Value) (loc : Location) :
    D.Obeys c none (f.run ev args loc) := by
  cases f with
  | mapValues =>
    refine .andThen hD (.of_confined hD (ObjectFn.confined_objectArg ..)) fun source => ?_
    refine .andThen hD (.of_confined hD (Argument.confined_callback ..)) fun g => ?_
    refine .andThen hD (.of_local hD (local_object source)) fun entries => ?_
    exact .andThen hD (obeys_mapEntries hD hev ..) fun es => .of_local hD (local_newObject es)
  | _ => exact .of_confined hD (ObjectFn.confined_run ev (by simp) args loc)

/-- An assertion may handle an error of the function that it calls. -/
theorem obeys_assertFn (f : AssertFn) (args : List Value) (loc : Location) :
    D.Obeys c none (f.run ev args loc) := by
  cases f with
  | throws =>
    refine .ite (.of_local hD (.of_refuse ..)) ?_
    -- An error of the function is the wanted outcome; the machine goes on where it was left.
    refine .andThen hD (.handled hD (.map hD (hev.call ..)) fun d => ?_) fun returned => ?_
    · exact .of_local hD (.of_pure _)
    · split
      · exact .of_local hD (.of_pure _)
      · exact .of_confined hD (AssertFn.confined_failWith _ _ loc (.of_pure _))
  | _ => exact .of_confined hD (AssertFn.confined_run ev (by simp) args loc)

theorem obeys_builtin (b : Builtin) (args : List Value) (loc : Location) :
    D.Obeys c none (b.call ev args loc) := by
  refine .ite ?_ (.of_local hD (.of_fail ..))
  cases b with
  | core f => exact .of_confined hD (f.confined_run args loc)
  | array f => exact obeys_arrayFn hD hev f args loc
  | assert f => exact obeys_assertFn hD hev f args loc
  | datetime f => exact .of_confined hD (f.confined_run args loc)
  | env f => exact .of_confined hD (f.confined_run args loc)
  | fs f => exact .of_confined hD (f.confined_run args loc)
  | http f => exact .of_confined hD (f.confined_run args loc)
  | json f => exact .of_confined hD (f.confined_run args loc)
  | math f => exact .of_confined hD (f.confined_run args loc)
  | object f => exact obeys_objectFn hD hev f args loc
  | path f => exact .of_confined hD (f.confined_run args loc)
  | regex f => exact .of_confined hD (f.confined_run args loc)
  | string f => exact .of_confined hD (f.confined_run args loc)

theorem obeys_callValue (f : Value) (args : List Value) (loc : Location) (name : String) :
    D.Obeys c none (callValue ev f args loc name) := by
  cases f with
  | closure identity fn home => exact obeys_callClosure hD hev fn home args loc
  | builtin identity b => exact obeys_builtin hD hev b args loc
  | _ => exact .of_local hD (.of_fail ..)

/-! ### Loops -/

theorem obeys_holds (test : Option Expr) : D.Obeys c none (holds ev test) := by
  cases test with
  | none => exact .of_local hD (.of_pure true)
  | some e => exact (hev.expr c e).andThen hD fun v => .of_local hD (.of_pure v.truthy)

theorem obeys_rounds (test : Option Expr) {body : List Stmt} (hb : ∀ s ∈ body, D.fits c s)
    (label : Option String) (bound : Nat) (last : Value) :
    D.Obeys c none (rounds ev test body label bound last) := by
  -- On the bound: what follows a round are the rounds below it.
  induction bound generalizing last with
  | zero => exact .of_local hD (.of_halt _)
  | succ bound ih =>
    refine (obeys_holds hD hev test).andThen hD fun goOn => .ite ?_ (.of_local hD (.of_pure _))
    refine (obeys_block hD hev hb).andThen hD fun flow => ?_
    cases flow with
    | normal v => exact ih v
    | continueTo j => exact .ite (ih last) (.of_local hD (.of_pure _))
    -- A jump or a returned value ends the loop.
    | _ => exact .of_local hD (.of_pure _)

theorem obeys_roundsOver (name : String) (r : Ref) {body : List Stmt}
    (hb : ∀ s ∈ body, D.fits c s) (label : Option String) (loc : Location) (bound i : Nat)
    (last : Value) : D.Obeys c none (roundsOver ev name r body label loc bound i last) := by
  induction bound generalizing i last with
  | zero => exact .of_local hD (.of_halt _)
  | succ bound ih =>
    refine .andThen hD (.of_local hD (local_element? r i)) fun item => ?_
    split
    · exact .of_local hD (.of_pure _)
    -- The round has a scope of its own, in which the element is bound; the rounds after it bind
    -- nothing there.
    · refine .newChild_andThen hD fun id => .andThen hD (.defineIn hD ..) fun _ => ?_
      refine (obeys_inScope hD hev hb id).andThen hD fun flow => ?_
      cases flow with
      | normal v => exact (ih (i + 1) v).widen hD
      | continueTo j => exact .ite ((ih (i + 1) last).widen hD) (.of_local hD (.of_pure _))
      | _ => exact .of_local hD (.of_pure _)

theorem obeys_forEach (name : String) (e : Expr) {body : List Stmt}
    (hb : ∀ s ∈ body, D.fits c s) (label : Option String) :
    D.Obeys c none (forEach ev name e body label) := by
  refine (hev.expr c e).andThen hD fun v => ?_
  split
  · refine .inBlock hD fun id => .widen hD ?_
    exact obeys_roundsOver (c := c.atScope id) hD hev name _ (fun s h => hD.atScope (hb s h)) ..
  · exact .of_local hD (.of_fail ..)

/-! ### Handlers and cases -/

theorem obeys_runHandler (name : Option String) {handler : List Stmt}
    (hb : ∀ s ∈ handler, D.fits c s) (d : Diagnostic) :
    D.Obeys c none (runHandler ev name handler d) := by
  refine .newChild_andThen hD fun id => ?_
  -- The error is bound in the scope of the handler.
  cases name with
  | none => exact obeys_inScope hD hev hb id
  | some n =>
    refine .andThen hD (.of_local hD (local_newObject _)) fun v => ?_
    exact .andThen hD (.defineIn hD ..) fun _ => obeys_inScope hD hev hb id

theorem obeys_attempt {body : List Stmt} (hb : ∀ s ∈ body, D.fits c s) (name : Option String)
    {handler : Option (List Stmt)} (hh : ∀ s ∈ handler.getD [], D.fits c s) :
    D.Obeys c none (attempt ev body name handler) := by
  cases handler with
  | none => exact obeys_block hD hev hb
  | some handler =>
    exact .handled hD (obeys_block hD hev hb) fun d => obeys_runHandler hD hev name hh d

omit hev in
theorem obeys_defineAll (id : ScopeId) (loc : Location) (entries : List (String × Value)) :
    D.Obeys c (some id) (defineAll id loc entries) := by
  induction entries with
  | nil => exact .of_local hD (.of_pure _)
  | cons e rest ih => exact .andThen hD (.defineIn hD ..) fun _ => ih

omit hev in
theorem obeys_caseNames (v : Value) (pattern : Option Pattern) :
    D.Obeys c none (caseNames v pattern) := by
  refine .of_local hD ?_
  unfold caseNames
  split <;> simp

/-- The condition of a case is computed in the scope of the case. -/
theorem obeys_runCase {body : List Stmt} (hb : ∀ s ∈ body, D.fits c s) (id : ScopeId)
    (guard : Option Expr) : D.Obeys c (some id) (runCase ev id guard body) := by
  have hcond : D.Obeys (c.atScope id) none (holds ev guard) := obeys_holds hD hev guard
  refine .inScope hD ((hcond.widen hD).andThen hD fun goOn => ?_)
  refine .ite (.map hD ?_) (.of_local hD (.of_pure none))
  exact obeys_runStatements (c := c.atScope id) hD hev fun s h => hD.atScope (hb s h)

/-- The condition of a case runs in the scope of the case, as its body does. -/
theorem obeys_firstCase (v : Value) {cases : List Case}
    (hb : ∀ s ∈ cases.flatMap Case.body, D.fits c s) :
    D.Obeys c none (firstCase ev v cases) := by
  induction cases with
  | nil => exact .of_local hD (.of_pure _)
  | cons case rest ih =>
    obtain ⟨pattern, guard, body, loc⟩ := case
    have hrest : D.Obeys c none (firstCase ev v rest) :=
      ih fun s h => hb s (by simp [h])
    have hbody : ∀ s ∈ body, D.fits c s := fun s h => hb s (by simp [Case.body, h])
    refine (obeys_caseNames hD v pattern).andThen hD fun names => ?_
    cases names with
    -- The pattern does not match.
    | none => exact hrest
    | some names =>
      refine .newChild_andThen hD fun id => .andThen hD (obeys_defineAll hD ..) fun _ => ?_
      refine (obeys_runCase hD hev hbody id guard).andThen hD fun flow => ?_
      cases flow with
      -- The pattern matches and the condition fails; the scope of the case is left behind.
      | none => exact hrest.widen hD
      | some flow => exact .of_local hD (.of_pure _)

theorem obeys_choose (e : Expr) {cases : List Case}
    (hb : ∀ s ∈ cases.flatMap Case.body, D.fits c s) :
    D.Obeys c none (choose ev e cases) := by
  refine (hev.expr c e).andThen hD fun v => ?_
  refine (obeys_firstCase hD hev v hb).andThen hD fun flow => ?_
  split
  · exact .of_local hD (.of_pure _)
  · exact .of_local hD (by simp)

/-! ### Statements -/

omit hev in
/-- Names bound one by one from the parts of a value. -/
theorem obeys_takeApart {i : Option ScopeId} (p : Destructure) (v : Value) (loc : Location)
    {bind : String → Value → Eval Unit} (hb : ∀ n v, D.Obeys c i (bind n v)) :
    D.Obeys c i (takeApart p v loc bind) :=
  takeApart_induction (J := fun _ => D.Obeys c i) (.of_local hD (.of_pure _))
    (fun n v _ _ hx => (hb n v).andThen hD fun _ => hx)
    (fun _ _ _ hk => .andThen hD (.of_local hD (.of_lookHeap _)) hk)
    (fun _ _ => .of_local hD (.of_fail ..)) p v

omit hev in
theorem obeys_declare (kind : DeclKind) (name : String) (v : Value) (loc : Location) :
    D.Obeys c (some c.scope) (declare kind name v loc) := by
  cases kind with
  | «global» => exact .defineIn_root hD ..
  | «let» | «const» => exact .define hD ..
  | «set» => exact .setVariable hD ..

/-- A loop under a label is run with the label, any other statement without. -/
theorem obeys_labeled {loc : Location} {name : String} {s : Stmt}
    (hs : D.fits c (.labeled loc name s)) :
    D.Obeys c (s.room c.scope) (labeled ev (some name) s) := by
  have hself : D.fits c s := hD.part hs (by simp)
  have hparts : ∀ s' ∈ s.parts, D.fits c s' := fun s' h => hD.part hself h
  cases s with
  | whileLoop loc test body => exact obeys_rounds hD hev (some test) hparts ..
  | loop loc body => exact obeys_rounds hD hev none hparts ..
  | forEach loc name e body => exact obeys_forEach hD hev name e hparts _
  -- Anything else has the room that it has without the label.
  | _ => exact hev.stmt c _ hself

/-- A statement before whose value nothing is bound. -/
theorem obeys_value {α : Type} {i : Option ScopeId} (e : Expr) {f : Value → Eval α}
    (hf : ∀ v, D.Obeys c i (f v)) : D.Obeys c i (ev.expr e >>= f) :=
  ((hev.expr c e).widen hD).andThen hD hf

theorem obeys_cond {loc : Location} {test : Expr} {yes : List Stmt} {no : Else}
    (hs : D.fits c (.cond loc test yes no)) :
    D.Obeys c ((Stmt.cond loc test yes no).room c.scope)
      (statement ev (.cond loc test yes no)) := by
  have hyes : ∀ s ∈ yes, D.fits c s := fun s h => hD.part hs (by simp [h])
  have hno : ∀ s ∈ no.parts, D.fits c s := fun s h => hD.part hs (by simp [h])
  refine obeys_value hD hev test fun v => .ite ((obeys_block hD hev hyes).widen hD) ?_
  cases no with
  | nothing => exact .of_local hD (.of_pure _)
  | block body => exact obeys_block hD hev hno
  -- What follows `else` directly runs in the same scope as the whole.
  | elseIf next => exact hev.stmt c next (hno next (by simp [Else.parts]))

/-- **Statements.** Each kind binds its names where `Stmt.room` allows it: a declaration in the
current scope, everything with a body in scopes of its own. -/
theorem obeys_statement (hI : D.Imports) {s : Stmt} (hs : D.fits c s) :
    D.Obeys c (s.room c.scope) (statement ev s) := by
  have hparts : ∀ s' ∈ s.parts, D.fits c s' := fun s' h => hD.part hs h
  cases s with
  | declare loc kind target e exported =>
    refine obeys_value hD hev e fun v => ?_
    have hbind (n : String) (item : Value) := obeys_declare (c := c) hD kind n item loc
    cases target with
    | name n => exact (hbind n v).andThen hD fun _ => .of_local hD (.of_pure _)
    | pattern p =>
      exact (obeys_takeApart hD p v loc hbind).andThen hD fun _ => .of_local hD (.of_pure _)
  | destructure loc p e =>
    refine obeys_value hD hev e fun v => ?_
    refine (obeys_takeApart hD p v _ fun n item => ?_).andThen hD fun _ => .of_local hD (.of_pure _)
    exact .setVariable hD n item loc
  | setProperty loc e name value =>
    refine obeys_value hD hev e fun target => obeys_value hD hev value fun v => ?_
    split <;> exact .of_local hD (by simp)
  | setIndex loc e index value =>
    refine obeys_value hD hev e fun target => obeys_value hD hev index fun key => ?_
    refine obeys_value hD hev value fun v => .of_local hD (.andThen ?_ fun _ => .of_pure _)
    unfold storeAt
    split
    · split
      · exact .of_fail ..
      · exact .ite (.of_fail ..) (confined_storeElement ..).toLocal
    · exact local_storeMember ..
    · exact .of_fail ..
  | function loc fn exported =>
    refine .andThen hD (.of_local hD (local_newClosure fn)) fun v => ?_
    exact .andThen hD (.define hD ..) fun _ => .of_local hD (.of_pure _)
  | cond loc test yes no => exact obeys_cond hD hev hs
  | guard loc test no =>
    refine obeys_value hD hev test fun v => .ite (.of_local hD (.of_pure _)) ?_
    refine (obeys_block hD hev hparts).andThen hD fun flow => ?_
    -- A guard whose body comes to its end is an error.
    split <;> exact .of_local hD (by simp)
  | whileLoop loc test body => exact obeys_rounds hD hev (some test) hparts ..
  | forEach loc name e body => exact obeys_forEach hD hev name e hparts _
  | loop loc body => exact obeys_rounds hD hev none hparts ..
  | labeled loc label body => exact obeys_labeled hD hev hs
  | breakTo loc label | continueTo loc label => exact .of_local hD (.of_pure _)
  | attempt loc body name handler =>
    exact obeys_attempt hD hev (fun s h => hparts s (by simp [h])) name
      fun s h => hparts s (by simp [h])
  | call loc callee args dest =>
    refine ((obeys_callExpr hD hev callee args false loc).widen hD).andThen hD fun v => ?_
    cases dest with
    | none => exact .of_local hD (by simp)
    | some n => exact .andThen hD (.define hD ..) fun _ => .of_local hD (.of_pure _)
  | giveBack loc e =>
    cases e with
    | none => exact .of_local hD (.of_pure _)
    | some e => exact obeys_value hD hev e fun v => .of_local hD (.of_pure _)
  | print loc e => exact obeys_value hD hev e fun v => .of_local hD (by simp)
  | raise loc e => exact obeys_value hD hev e fun v => .of_local hD (by simp)
  | choose loc e cases => exact obeys_choose hD hev e hparts
  | load loc path name =>
    -- The import binds nothing here; its alias is bound after it.
    refine ((hI hev hs).widen hD).andThen hD fun v => .scope_andThen ?_
    refine .andThen hD ?_ fun _ => .of_local hD (.of_pure _)
    exact .alterScopes hD (fun _ _ => Scopes.planDefine_within) fun _ _ => Scopes.planDefine_fair
  | expr loc e => exact obeys_value hD hev e fun v => .of_local hD (.of_pure _)

/-! ### The evaluator -/

omit hev in
/-- **The evaluator.** It obeys at every depth, since each depth is the rules over the one below. -/
theorem evaluates_ofBound (hI : D.Imports) (n : Nat) : D.Evaluates (Evaluator.ofBound n) := by
  induction n with
  -- Below the bound everything halts.
  | zero =>
    exact ⟨fun _ _ => .of_local hD (.of_halt _), fun _ _ _ => .of_local hD (.of_halt _),
      fun _ _ _ _ _ => .of_local hD (.of_halt _)⟩
  | succ n ih =>
    refine ⟨fun c e => ?_, fun c s hs => ?_, fun c f args loc name => ?_⟩
    · simpa [Evaluator.ofBound] using obeys_expression hD ih e
    · simpa [Evaluator.ofBound] using obeys_statement hD ih hI hs
    · simpa [Evaluator.ofBound] using obeys_callValue hD ih f args loc name

omit hev in
theorem evaluates_full (hI : D.Imports) : D.Evaluates Evaluator.full :=
  evaluates_ofBound hD hI _

omit hev in
/-- Statements of a file, run as a file. -/
theorem obeys_fileBody (hev : D.Evaluates ev) {p : Program} {file : String} {id : ScopeId}
    (hp : ∀ s ∈ p.statements, D.fits (c.enterFile id file) s) :
    D.Obeys c (some id) (inFile id file do
      (← runStatements ev p.statements).atBoundary fun v => v) := by
  refine .inFile hD (.andThen hD ?_ fun flow => .of_local hD (flow.local_atBoundary _))
  exact obeys_runStatements (c := c.enterFile id file) hD hev hp

omit hev in
/-- **Programs.** A program may bind names in the root scope. Completing its error changes the error
alone. -/
theorem obeys_interpretOver (hev : D.Evaluates ev) {p : Program} {file : String}
    (hp : ∀ calls, ∀ s ∈ p.statements,
      D.fits ((c.withCalls calls).enterFile Scopes.root file) s) :
    D.Obeys c (some Scopes.root) (Machine.interpretOver ev p file) := by
  have hx : D.Obeys c (some Scopes.root) (inCall ⟨Machine.rootName, p.location⟩
      (inFile Scopes.root file do
        (← runStatements ev p.statements).atBoundary fun v => v)) :=
    .inCall hD fun calls => obeys_fileBody (c := c.withCalls calls) hD hev (hp calls)
  refine ⟨fun m hm => ?_⟩
  have h := hx.ends m hm
  -- The machine of an error is the one that the program left.
  unfold Machine.interpretOver Machine.completed
  split
  · rename_i d m' e
    rw [e] at h
    exact h
  · exact h

omit hev in
theorem obeys_interpret (hI : D.Imports) {p : Program} {file : String}
    (hp : ∀ calls, ∀ s ∈ p.statements,
      D.fits ((c.withCalls calls).enterFile Scopes.root file) s) :
    D.Obeys c (some Scopes.root) (Machine.interpret p file) :=
  obeys_interpretOver hD (evaluates_full hD hI) hp

omit hev in
theorem obeys_callFunction (hI : D.Imports) (f : Value) (args : List Value) (loc : Location) :
    D.Obeys c none (Machine.callFunction f args loc) :=
  (evaluates_full hD hI).call ..

end ScriptLang.Discipline

/-! ### Requests to a machine -/

namespace ScriptLang

namespace Machine

/-- What a machine can be asked to do from outside. -/
inductive Request where
  /-- To run a program as a file. -/
  | interpret (p : Program) (file : String)
  /-- To call a function value. -/
  | callFunction (f : Value) (args : List Value) (loc : Location)

/-- The computation of a request. -/
def Request.run : Request → Eval Value
  | .interpret p file => Machine.interpret p file
  | .callFunction f args loc => Machine.callFunction f args loc

/-- Requests one after the other. An error ends a request, and the next one follows. -/
def serve : List Request → Eval Unit
  | [] => pure ()
  | r :: rest => do
    Eval.handle (do let _ ← r.run) fun _ => pure ()
    serve rest

end Machine

namespace Discipline

variable {D : Discipline} (hD : D.Lawful) (hI : D.Imports) (hfits : ∀ c s, D.fits c s)
include hD hI hfits

theorem obeys_request (r : Machine.Request) (c : Context) :
    D.Obeys c (some Scopes.root) r.run := by
  cases r with
  | interpret p file => exact obeys_interpret hD hI fun _ _ _ => hfits _ _
  | callFunction f args loc => exact (obeys_callFunction hD hI f args loc).widen hD

theorem obeys_serve (rs : List Machine.Request) (c : Context) :
    D.Obeys c (some Scopes.root) (Machine.serve rs) := by
  induction rs with
  | nil => exact .of_local hD (.of_pure ())
  | cons r rest ih =>
    refine .andThen hD (.handled hD ?_ fun d => .of_local hD (.of_pure ())) fun _ => ih
    exact .andThen hD (obeys_request hD hI hfits r c) fun _ => .of_local hD (.of_pure ())

end Discipline

end ScriptLang
