import ScriptLang.Proofs.Regime

/-!
# Two evaluators under a regime

The walk over the rules of the language for two evaluators at once. Where the evaluators agree on
what a regime allows (`Regime.Alike`), the rules over the one agree with the rules over the other:

* `Regime.agrees_expression` and `Regime.agrees_callValue` — expressions and calls;
* `Regime.agrees_statement` — statements other than imports;
* `Regime.meets_load` — an import, in a machine in which the file that it runs is known.

The walk follows the files of the evaluator, as `Proofs.Evaluator` does. What the regime knows of an
expression, a function or a statement goes to its parts by the obligations of `Regime.Lawful`.
-/

namespace ScriptLang.Regime

open Eval

variable {P : Regime} (hP : P.Lawful) {ev ev' : Evaluator} (hev : P.Alike ev ev') {c : Context}
  (hc : P.contexts c)
include hP hev hc

attribute [local simp] Stmt.exprs

/-! ### Arguments and callees -/

omit hP in
theorem agrees_argumentsOnto {done : List Value} (hd : Among P.functions done)
    {elements : List Element} (he : ∀ e ∈ elements.map Element.value, P.exprs e) :
    P.Agrees c (Among P.functions) (argumentsOnto ev done elements)
      (argumentsOnto ev' done elements) := by
  induction elements generalizing done with
  | nil => exact .of_pure (among_reverse.mpr hd)
  | cons e rest ih =>
    obtain ⟨he, hrest⟩ := List.forall_mem_cons.mp he
    cases e with
    | item e =>
      exact (hev.expr hc he).andThen fun v hv => ih (among_cons.mpr ⟨hv, hd⟩) hrest
    | spread e =>
      refine (hev.expr hc he).andThen fun v hv => ?_
      refine .tame_andThen (tame_spread v (by nofun) _) fun vs hvs => ?_
      exact ih (among_append.mpr ⟨among_reverse.mpr hvs, hd⟩) hrest

omit hP in
theorem agrees_callExpr {callee : Expr} {args : List Element}
    (he : ∀ e ∈ callee :: args.map Element.value, P.exprs e) (safe : Bool) (loc : Location) :
    P.Agrees c (Among P.functions) (callExpr ev callee args safe loc)
      (callExpr ev' callee args safe loc) := by
  obtain ⟨hcallee, hargs⟩ := List.forall_mem_cons.mp he
  refine (hev.expr hc hcallee).andThen fun f hf => .ite (.of_pure trivial) ?_
  refine .tame_andThen (tame_requireCallable ..) fun _ _ => ?_
  exact (agrees_argumentsOnto hev hc among_nil hargs).andThen fun vs hvs => hev.call hc hf hvs

/-! ### Expressions -/

omit hP in
theorem agrees_elementsOnto {done : Array Value} (hd : Among P.functions done)
    {items : List Element} (he : ∀ e ∈ items.map Element.value, P.exprs e) :
    P.Agrees c (Among P.functions) (elementsOnto ev done items) (elementsOnto ev' done items) := by
  induction items generalizing done with
  | nil => exact .of_pure hd
  | cons e rest ih =>
    obtain ⟨he, hrest⟩ := List.forall_mem_cons.mp he
    cases e with
    | item e => exact (hev.expr hc he).andThen fun v hv => ih (hd.push hv) hrest
    | spread e =>
      refine (hev.expr hc he).andThen fun v hv => ?_
      refine .tame_andThen (tame_spread v (by nofun) _) fun vs hvs => ?_
      refine ih ?_ hrest
      rw [← among_toList, Array.toList_append, among_append]
      exact ⟨hd, hvs⟩

omit hP in
theorem agrees_entriesOnto {done : OrderedMap Value} (hd : Among P.functions done)
    {entries : List Entry} (he : ∀ e ∈ entries.map Entry.value, P.exprs e) :
    P.Agrees c (Among P.functions) (entriesOnto ev done entries)
      (entriesOnto ev' done entries) := by
  induction entries generalizing done with
  | nil => exact .of_pure hd
  | cons e rest ih =>
    obtain ⟨he, hrest⟩ := List.forall_mem_cons.mp he
    cases e with
    | property key e => exact (hev.expr hc he).andThen fun v hv => ih (hd.insert key hv) hrest
    | spread e =>
      refine (hev.expr hc he).andThen fun v hv => ?_
      split
      · refine .tame_andThen (.of_lookHeap fun h hh => (hh.object _).toList) fun es hes => ?_
        exact ih (hd.insertAll hes) hrest
      · exact .of_fail nofun

omit hP in
theorem agrees_partsOnto (done : String) {parts : List Part}
    (he : ∀ e ∈ parts.filterMap Part.value?, P.exprs e) :
    P.Agrees c (Among P.functions) (partsOnto ev done parts) (partsOnto ev' done parts) := by
  induction parts generalizing done with
  | nil => exact .of_pure trivial
  | cons p rest ih =>
    cases p with
    | text t => exact ih (done ++ t) he
    | expr e =>
      obtain ⟨he, hrest⟩ := List.forall_mem_cons.mp he
      refine (hev.expr hc he).andThen fun v hv => ?_
      exact .tame_andThen (tame_print v) fun t _ => ih (done ++ t) hrest

/-- **Expressions.** -/
theorem agrees_expression {e : Expr} (he : P.exprs e) :
    P.Agrees c (Among P.functions) (expression ev e) (expression ev' e) := by
  -- The parts are allowed and run alike; what is done with their values is tame.
  have hparts : ∀ e' ∈ e.parts, P.exprs e' := fun e' h => hP.part he h
  cases e with
  | ident loc name => exact .of_tame (tame_nameValue name loc)
  | literal loc l => exact .of_pure (among_ofLiteral l)
  | binary loc op l r =>
    simp only [Expr.parts, List.forall_mem_cons] at hparts
    refine (hev.expr hc hparts.1).andThen fun a ha => ?_
    refine (hev.expr hc hparts.2.1).andThen fun b hb => ?_
    exact .of_tame (tame_combine op ha hb loc)
  | unary loc op e =>
    simp only [Expr.parts, List.forall_mem_cons] at hparts
    exact (hev.expr hc hparts.1).andThen fun v _ => .of_tame (tame_applyUnary op v loc)
  | array loc items =>
    refine (agrees_elementsOnto hev hc among_emptyArray hparts).andThen fun vs hvs => ?_
    exact .of_tame (tame_newArray hvs)
  | object loc entries =>
    refine (agrees_entriesOnto hev hc among_emptyMap hparts).andThen fun es hes => ?_
    exact .of_tame (tame_newObject hes)
  | property loc e name safe =>
    simp only [Expr.parts, List.forall_mem_cons] at hparts
    exact (hev.expr hc hparts.1).andThen fun v _ => .of_tame (tame_memberOf v name safe loc)
  | index loc e index safe =>
    simp only [Expr.parts, List.forall_mem_cons] at hparts
    refine (hev.expr hc hparts.1).andThen fun v _ => .ite (.of_pure trivial) ?_
    exact (hev.expr hc hparts.2.1).andThen fun key _ => .of_tame (tame_elementOf v key _)
  | member loc module name => exact .of_tame (tame_moduleMember module name loc)
  | call loc callee args safe => exact agrees_callExpr hev hc hparts safe loc
  | template loc parts =>
    exact (agrees_partsOnto hev hc "" hparts).andThen fun t _ => .of_pure trivial
  | function loc fn =>
    -- The one place where an expression makes a function: it is one of the expression's own.
    exact .of_tame (tame_newClosure (hP.literal he (by simp [Expr.functions])))
  | inlineIf loc test yes no =>
    simp only [Expr.parts, List.forall_mem_cons] at hparts
    refine (hev.expr hc hparts.1).andThen fun v _ => ?_
    exact .ite (hev.expr hc hparts.2.1) (hev.expr hc hparts.2.2.1)
  | pipe loc e callee args =>
    obtain ⟨he, hparts⟩ := List.forall_mem_cons.mp hparts
    obtain ⟨hcallee, hargs⟩ := List.forall_mem_cons.mp hparts
    refine (hev.expr hc he).andThen fun v hv => (hev.expr hc hcallee).andThen fun f hf => ?_
    refine .tame_andThen (tame_requireCallable ..) fun _ _ => ?_
    refine (agrees_argumentsOnto hev hc among_nil hargs).andThen fun vs hvs => ?_
    exact hev.call hc hf (among_cons.mpr ⟨hv, hvs⟩)

/-! ### Bodies -/

omit hP hev hc in
theorem tame_hoist {T : FunctionDef → Prop} {body : List Stmt}
    (hb : ∀ s ∈ body, ∀ fn ∈ s.functions, T fn) : Tame T (hoist body) := by
  induction body with
  | nil => exact .of_pure trivial
  | cons s rest ih =>
    obtain ⟨hs, hrest⟩ := List.forall_mem_cons.mp hb
    cases s with
    | function loc fn exported =>
      unfold hoist
      split
      · exact ih hrest
      · -- A function is bound at once, unless its name has been declared.
        refine .andThen (tame_declared _) fun known _ => .ite (ih hrest) ?_
        refine .andThen (tame_newClosure (hs fn (by simp [Stmt.functions]))) fun v hv => ?_
        exact .andThen (tame_define hv) fun _ _ => ih hrest
    | _ => exact ih hrest

omit hP in
theorem agrees_runFrom {nest : List (Option String)} {body : List Stmt}
    (hb : ∀ s ∈ body, P.stmts nest s) {last : Value} (hl : Among P.functions last) :
    P.Agrees c (P.Fits nest) (runFrom ev body last) (runFrom ev' body last) := by
  induction body generalizing last with
  | nil => exact .of_pure hl
  | cons s rest ih =>
    obtain ⟨hs, hrest⟩ := List.forall_mem_cons.mp hb
    refine (hev.stmt hc hs).andThen fun flow hf => ?_
    cases flow with
    | normal v => exact ih hrest hf
    | _ => exact .of_pure hf

theorem agrees_runStatements {nest : List (Option String)} {body : List Stmt}
    (hb : ∀ s ∈ body, P.stmts nest s) :
    P.Agrees c (P.Fits nest) (runStatements ev body) (runStatements ev' body) := by
  refine .tame_andThen (tame_hoist fun s hs fn hfn => hP.declared (hb s hs) hfn) fun _ _ => ?_
  exact agrees_runFrom hev hc hb trivial

/-- Statements in a scope that was made for them. -/
theorem agrees_inScope {nest : List (Option String)} {body : List Stmt}
    (hb : ∀ s ∈ body, P.stmts nest s) (id : ScopeId) :
    P.Agrees c (P.Fits nest) (inScope id (runStatements ev body))
      (inScope id (runStatements ev' body)) :=
  .inScope (agrees_runStatements hP hev (hP.atScope id hc) hb)

/-- Statements in a block of the current scope. -/
theorem agrees_block {nest : List (Option String)} {body : List Stmt}
    (hb : ∀ s ∈ body, P.stmts nest s) :
    P.Agrees c (P.Fits nest) (inBlock (runStatements ev body))
      (inBlock (runStatements ev' body)) :=
  .inBlock fun id => agrees_runStatements hP hev (hP.atScope id hc) hb

omit hev hc in
/-- Inside no loop a body can only end with a jump where stray jumps are allowed. -/
theorem agrees_atBoundary {normal : Value → Value}
    (hn : ∀ v, Among P.functions v → Among P.functions (normal v)) {flow : Flow}
    (hf : P.Fits [] flow) :
    P.Agrees c (Among P.functions) (flow.atBoundary normal) (flow.atBoundary normal) := by
  cases flow with
  | normal v => exact .of_pure (hn v hf)
  | giveBack v => exact .of_pure hf
  | breakTo j => exact .of_raise (.inl (hP.boundary hf))
  | continueTo j => exact .of_raise (.inl (hP.boundary hf))

/-! ### Calls -/

omit hP in
theorem agrees_bindParams (loc : Location) {params : List Param}
    (hd : ∀ e ∈ params.filterMap Param.default?, P.exprs e) {args : List Value}
    (ha : Among P.functions args) :
    P.Agrees c (Among P.functions) (bindParams ev loc params args)
      (bindParams ev' loc params args) := by
  induction params generalizing args with
  | nil => exact .of_pure ha
  | cons p ps ih =>
    have hps : ∀ e ∈ ps.filterMap Param.default?, P.exprs e := by
      intro e he
      obtain ⟨q, hq, he⟩ := List.mem_filterMap.mp he
      exact hd e (List.mem_filterMap.mpr ⟨q, List.mem_cons_of_mem _ hq, he⟩)
    cases args with
    | cons v args =>
      obtain ⟨hv, hargs⟩ := among_cons.mp ha
      exact .tame_andThen (tame_define hv) fun _ _ => ih hps hargs
    | nil =>
      -- No argument is left: the value is that of the default, or null.
      have hnext (v : Value) (hv : Among P.functions v) : P.Agrees c (Among P.functions)
          (do define p.name v .set loc; bindParams ev loc ps [])
          (do define p.name v .set loc; bindParams ev' loc ps []) :=
        .tame_andThen (tame_define hv) fun _ _ => ih hps among_nil
      unfold bindParams
      dsimp only
      split
      · rename_i e he
        exact (hev.expr hc (hd e (List.mem_filterMap.mpr ⟨p, by simp, he⟩))).andThen hnext
      · exact .andThen (.of_pure (p := Among P.functions) trivial) hnext

omit hP hev hc in
theorem tame_bindRest {T : FunctionDef → Prop} (name : Option String) {args : List Value}
    (ha : Among T args) (loc : Location) : Tame T (bindRest name args loc) := by
  cases name with
  | none => exact .of_pure trivial
  | some name => exact .andThen (tame_newList ha) fun v hv => tame_define hv

/-- **Calls.** A body is inside no loop, and it runs as one call more. -/
theorem agrees_callClosure {fn : FunctionDef} (hfn : P.functions fn) (home : ScopeId)
    {args : List Value} (ha : Among P.functions args) (loc : Location) :
    P.Agrees c (Among P.functions) (callClosure ev fn home args loc)
      (callClosure ev' fn home args loc) := by
  refine .ite (.of_fail nofun) (.ite (.of_fail nofun) (.inFunction ?_))
  refine .tame_andThen (tame_newChildOf ..) fun id _ => .inScope ?_
  have hscope := hP.atScope id (hP.enterFunction fn.displayName hc)
  refine (agrees_bindParams hev hscope loc (fun e he => hP.default hfn he) ha).andThen ?_
  refine fun remaining hr => .tame_andThen (tame_bindRest _ hr loc) fun _ _ => ?_
  refine .inCall fun calls hcalls => ?_
  refine (agrees_runStatements hP hev (hP.push hscope hcalls) fun s hs => hP.body hfn hs).andThen ?_
  exact fun flow hf => agrees_atBoundary hP (fun _ _ => among_null) hf

/-! ### Library functions that call back -/

omit hP in
theorem agrees_callCallback {f : Argument.Callback} (hf : Among P.functions f)
    {args : List Value} (ha : Among P.functions args) (loc : Location) :
    P.Agrees c (Among P.functions) (Argument.callCallback ev f args loc)
      (Argument.callCallback ev' f args loc) := by
  refine hev.call hc hf ?_
  split
  · exact ha
  · exact ha.of_subset fun v hv => List.mem_of_mem_take hv

omit hP in
/-- Visiting keeps to the regime if taking a result does. -/
theorem agrees_visitFrom {σ τ : Type} [Carries σ] [Carries τ] (r : Ref) {whole : Value}
    (hw : Among P.functions whole) {f : Argument.Callback} (hf : Among P.functions f)
    (loc : Location) {visit : σ → Nat → Value → Value → σ ⊕ τ}
    (hv : ∀ acc i item v, Among P.functions acc → Among P.functions item →
      Among P.functions v → Among P.functions (visit acc i item v))
    (bound i : Nat) {acc : σ} (ha : Among P.functions acc) :
    P.Agrees c (Among P.functions) (ArrayFn.visitFrom ev r whole f loc visit bound i acc)
      (ArrayFn.visitFrom ev' r whole f loc visit bound i acc) := by
  induction bound generalizing i acc with
  | zero => exact .of_halt
  | succ bound ih =>
    refine .tame_andThen (tame_element? r i) fun item hi => ?_
    split
    · exact .of_pure (among_inl.mpr ha)
    · rename_i item
      have hitem := among_some.mp hi
      refine (agrees_callCallback hev hc hf ?_ loc).andThen fun result hres => ?_
      · simpa using ⟨hitem, hw⟩
      · have h := hv acc i item result ha hitem hres
        split
        · rename_i e
          rw [e] at h
          exact ih _ (among_inl.mp h)
        · rename_i e
          rw [e] at h
          exact .of_pure h

omit hP in
theorem agrees_visitAll {σ τ : Type} [Carries σ] [Carries τ] (function : String)
    {args : List Value} (hargs : Among P.functions args) (loc : Location) {start : σ}
    (hs : Among P.functions start) {visit : σ → Nat → Value → Value → σ ⊕ τ}
    (hv : ∀ acc i item v, Among P.functions acc → Among P.functions item →
      Among P.functions v → Among P.functions (visit acc i item v)) :
    P.Agrees c (Among P.functions) (ArrayFn.visitAll ev function args loc start visit)
      (ArrayFn.visitAll ev' function args loc start visit) := by
  have hn := Argument.among_nth hargs
  refine .tame_andThen (Argument.tame_array ..) fun r _ => ?_
  refine .tame_andThen (Argument.tame_callback _ (hn 2) ..) fun f hf => ?_
  rw [hev.bound]
  exact agrees_visitFrom hev hc r (hn 1) hf loc hv _ _ hs

omit hP in
theorem agrees_foldFrom (r : Ref) {whole : Value} (hw : Among P.functions whole)
    {f : Argument.Callback} (hf : Among P.functions f) (loc : Location) (bound i : Nat)
    {acc : Value} (ha : Among P.functions acc) :
    P.Agrees c (Among P.functions) (ArrayFn.foldFrom ev r whole f loc bound i acc)
      (ArrayFn.foldFrom ev' r whole f loc bound i acc) := by
  induction bound generalizing i acc with
  | zero => exact .of_halt
  | succ bound ih =>
    refine .tame_andThen (tame_element? r i) fun item hi => ?_
    split
    · exact .of_pure ha
    · refine (agrees_callCallback hev hc hf ?_ loc).andThen fun acc hacc => ih _ hacc
      simpa using ⟨ha, among_some.mp hi, hw⟩

omit hP in
theorem agrees_arrayFn (f : ArrayFn) {args : List Value} (ha : Among P.functions args)
    (loc : Location) :
    P.Agrees c (Among P.functions) (f.run ev args loc) (f.run ev' args loc) := by
  have hn := Argument.among_nth ha
  cases f with
  | map =>
    refine (agrees_visitAll hev hc "map" ha loc among_emptyArray ?_).andThen fun out ho => ?_
    · exact fun acc _ _ v hacc _ hv => among_inl.mpr (hacc.push hv)
    · exact .of_tame (tame_newArray (ArrayFn.among_gathered ho))
  | filter =>
    refine (agrees_visitAll hev hc "filter" ha loc among_emptyArray ?_).andThen fun out ho => ?_
    · intro acc _ item v hacc hitem _
      refine among_inl.mpr ?_
      split
      · exact hacc.push hitem
      · exact hacc
    · exact .of_tame (tame_newArray (ArrayFn.among_gathered ho))
  | forEach =>
    refine (agrees_visitAll hev hc "for_each" ha loc (among_plain ()) ?_).andThen
      fun _ _ => .of_pure trivial
    exact fun _ _ _ _ _ _ _ => among_inl.mpr trivial
  | find =>
    refine (agrees_visitAll hev hc "find" ha loc (among_plain ()) ?_).andThen fun out ho => ?_
    · intro _ _ item v _ hitem _
      split
      · exact among_inr.mpr hitem
      · exact among_inl.mpr trivial
    · split
      · exact .of_pure (among_inr.mp ho)
      · exact .of_pure trivial
  | findIndex =>
    refine (agrees_visitAll hev hc "find_index" ha loc (among_plain ()) ?_).andThen fun out ho => ?_
    · intro _ i item v _ _ _
      split
      · exact among_inr.mpr trivial
      · exact among_inl.mpr trivial
    · split <;> exact .of_pure trivial
  | reduce =>
    refine .tame_andThen (Argument.tame_array ..) fun r _ => ?_
    refine .tame_andThen (Argument.tame_callback _ (hn 2) ..) fun g hg => ?_
    rw [hev.bound]
    split
    · rename_i start e
      exact agrees_foldFrom hev hc r (hn 1) hg loc _ _ (Argument.among_given? ha 3 start e)
    · refine .tame_andThen (tame_element? r 0) fun start hs => ?_
      split
      · exact agrees_foldFrom hev hc r (hn 1) hg loc _ _ (among_some.mp hs)
      · exact .of_raise (.inr (by simp [ArrayReport.reduceEmpty, Report.badArgument]))
  -- The others call nothing back.
  | _ => exact .of_tame (ArrayFn.tame_run ev rfl args loc)

omit hP in
theorem agrees_mapEntries {whole : Value} (hw : Among P.functions whole) {f : Argument.Callback}
    (hf : Among P.functions f) (loc : Location) {entries : List (String × Value)}
    (he : Among P.functions entries) {done : OrderedMap Value} (hd : Among P.functions done) :
    P.Agrees c (Among P.functions) (ObjectFn.mapEntries ev whole f loc entries done)
      (ObjectFn.mapEntries ev' whole f loc entries done) := by
  induction entries generalizing done with
  | nil => exact .of_pure hd
  | cons e rest ih =>
    obtain ⟨he, hrest⟩ := among_cons.mp he
    refine (agrees_callCallback hev hc hf ?_ loc).andThen fun v hv => ih hrest (hd.insert _ hv)
    simpa using ⟨he.2, hw⟩

omit hP in
theorem agrees_objectFn (f : ObjectFn) {args : List Value} (ha : Among P.functions args)
    (loc : Location) :
    P.Agrees c (Among P.functions) (f.run ev args loc) (f.run ev' args loc) := by
  have hn := Argument.among_nth ha
  cases f with
  | mapValues =>
    refine .tame_andThen (ObjectFn.tame_objectArg ..) fun source _ => ?_
    refine .tame_andThen (Argument.tame_callback _ (hn 2) ..) fun g hg => ?_
    refine .tame_andThen (tame_object source) fun es hes => ?_
    refine (agrees_mapEntries hev hc (hn 1) hg loc hes.toList among_emptyMap).andThen ?_
    exact fun _ h => .of_tame (tame_newObject h)
  | _ => exact .of_tame (ObjectFn.tame_run ev (by simp) args loc)

omit hP in
/-- An assertion may handle an error of the function that it calls. -/
theorem agrees_assertFn (f : AssertFn) {args : List Value} (ha : Among P.functions args)
    (loc : Location) :
    P.Agrees c (Among P.functions) (f.run ev args loc) (f.run ev' args loc) := by
  have hn := Argument.among_nth ha
  cases f with
  | throws =>
    refine .ite (.of_raise (.inr (by simp [AssertReport.needsFunction, Report.wrongType]))) ?_
    have hcall : P.Agrees c (Among P.functions)
        (some <$> ev.call (Argument.nth args 1) [] loc "assert.throws")
        (some <$> ev'.call (Argument.nth args 1) [] loc "assert.throws") :=
      (hev.call hc (hn 1) among_nil).map fun v hv => among_some.mpr hv
    refine (Agrees.handled hcall fun d => .of_pure among_none).andThen fun returned _ => ?_
    split
    · exact .of_pure trivial
    · exact .of_tame (AssertFn.tame_failWith _ _ _ (.of_pure trivial))
  | _ => exact .of_tame (AssertFn.tame_run ev (by simp) args loc)

omit hP in
theorem agrees_builtin (b : Builtin) {args : List Value} (ha : Among P.functions args)
    (loc : Location) :
    P.Agrees c (Among P.functions) (b.call ev args loc) (b.call ev' args loc) := by
  refine .ite ?_ (.of_fail nofun)
  cases b with
  | core f => exact .of_tame (f.tame_run ha loc)
  | array f => exact agrees_arrayFn hev hc f ha loc
  | assert f => exact agrees_assertFn hev hc f ha loc
  | datetime f => exact .of_tame (f.tame_run args loc)
  | env f => exact .of_tame (f.tame_run ha loc)
  | fs f => exact .of_tame (f.tame_run args loc)
  | http f => exact .of_tame (f.tame_run args loc)
  | json f => exact .of_tame (f.tame_run args loc)
  | math f => exact .of_tame (f.tame_run args loc)
  | object f => exact agrees_objectFn hev hc f ha loc
  | path f => exact .of_tame (f.tame_run args loc)
  | regex f => exact .of_tame (f.tame_run args loc)
  | string f => exact .of_tame (f.tame_run args loc)

theorem agrees_callValue {f : Value} (hf : Among P.functions f) {args : List Value}
    (ha : Among P.functions args) (loc : Location) (name : String) :
    P.Agrees c (Among P.functions) (callValue ev f args loc name)
      (callValue ev' f args loc name) := by
  unfold callValue
  split
  · exact agrees_callClosure hP hev hc (among_closure.mp hf) _ ha loc
  · exact agrees_builtin hev hc _ ha loc
  · exact .of_fail nofun

/-! ### Loops -/

omit hP in
theorem agrees_holds {test : Option Expr} (ht : ∀ e ∈ test.toList, P.exprs e) :
    P.Agrees c (Among P.functions) (holds ev test) (holds ev' test) := by
  cases test with
  | none => exact .of_pure trivial
  | some e => exact (hev.expr hc (ht e (by simp))).andThen fun v _ => .of_pure trivial

theorem agrees_rounds {nest : List (Option String)} {test : Option Expr}
    (ht : ∀ e ∈ test.toList, P.exprs e) {body : List Stmt} {label : Option String}
    (hb : ∀ s ∈ body, P.stmts (label :: nest) s) (bound : Nat) {last : Value}
    (hl : Among P.functions last) :
    P.Agrees c (P.Fits nest) (rounds ev test body label bound last)
      (rounds ev' test body label bound last) := by
  -- On the bound: what follows a round are the rounds below it.
  induction bound generalizing last with
  | zero => exact .of_halt
  | succ bound ih =>
    refine (agrees_holds hev hc ht).andThen fun goOn _ => .ite ?_ (.of_pure hl)
    refine (agrees_block hP hev hc hb).andThen fun flow hf => ?_
    cases flow with
    | normal v => exact ih hf
    | giveBack v => exact .of_pure hf
    | breakTo j =>
      refine .of_pure ?_
      split
      · exact hl
      · rename_i hj
        exact hP.pass hf (by simpa using hj)
    | continueTo j =>
      dsimp only
      split
      · exact ih hl
      · rename_i hj
        exact .of_pure (hP.pass hf (by simpa using hj))

theorem agrees_roundsOver {nest : List (Option String)} (name : String) (r : Ref)
    {body : List Stmt} {label : Option String} (hb : ∀ s ∈ body, P.stmts (label :: nest) s)
    (loc : Location) (bound i : Nat) {last : Value} (hl : Among P.functions last) :
    P.Agrees c (P.Fits nest) (roundsOver ev name r body label loc bound i last)
      (roundsOver ev' name r body label loc bound i last) := by
  induction bound generalizing i last with
  | zero => exact .of_halt
  | succ bound ih =>
    refine .tame_andThen (tame_element? r i) fun item hi => ?_
    split
    · exact .of_pure hl
    · refine .tame_andThen (tame_newChild _) fun id _ => ?_
      refine .tame_andThen (tame_defineIn (among_some.mp hi)) fun _ _ => ?_
      refine (agrees_inScope hP hev hc hb id).andThen fun flow hf => ?_
      cases flow with
      | normal v => exact ih _ hf
      | giveBack v => exact .of_pure hf
      | breakTo j =>
        refine .of_pure ?_
        split
        · exact hl
        · rename_i hj
          exact hP.pass hf (by simpa using hj)
      | continueTo j =>
        dsimp only
        split
        · exact ih _ hl
        · rename_i hj
          exact .of_pure (hP.pass hf (by simpa using hj))

theorem agrees_forEach {nest : List (Option String)} (name : String) {e : Expr}
    (he : P.exprs e) {body : List Stmt} {label : Option String}
    (hb : ∀ s ∈ body, P.stmts (label :: nest) s) :
    P.Agrees c (P.Fits nest) (forEach ev name e body label) (forEach ev' name e body label) := by
  refine (hev.expr hc he).andThen fun v _ => ?_
  split
  · rw [hev.bound]
    exact .inBlock fun id =>
      agrees_roundsOver hP hev (hP.atScope id hc) name _ hb _ _ _ trivial
  · exact .of_fail nofun

/-! ### Handlers and cases -/

omit hP hev hc in
/-- What a handler is told about an error has no functions. -/
theorem among_errorMembers {T : FunctionDef → Prop} (d : Diagnostic) :
    Among T (errorMembers d) := by
  unfold errorMembers
  cases d.suggestion <;> simp [Value.ofOption]

theorem agrees_runHandler {nest : List (Option String)} (name : Option String)
    {handler : List Stmt} (hb : ∀ s ∈ handler, P.stmts nest s) (d : Diagnostic) :
    P.Agrees c (P.Fits nest) (runHandler ev name handler d) (runHandler ev' name handler d) := by
  refine .tame_andThen (tame_newChild _) fun id _ => ?_
  cases name with
  | none => exact agrees_inScope hP hev hc hb id
  | some n =>
    refine .tame_andThen (tame_newObject (Among.ofList (among_errorMembers d))) fun v hv => ?_
    exact .tame_andThen (tame_defineIn hv) fun _ _ => agrees_inScope hP hev hc hb id

theorem agrees_attempt {nest : List (Option String)} {body : List Stmt}
    (hb : ∀ s ∈ body, P.stmts nest s) (name : Option String) {handler : Option (List Stmt)}
    (hh : ∀ s ∈ handler.getD [], P.stmts nest s) :
    P.Agrees c (P.Fits nest) (attempt ev body name handler) (attempt ev' body name handler) := by
  cases handler with
  | none => exact agrees_block hP hev hc hb
  | some handler =>
    exact .handled (agrees_block hP hev hc hb) fun d => agrees_runHandler hP hev hc name hh d

omit hP hev hc in
theorem tame_defineAll {T : FunctionDef → Prop} (id : ScopeId) (loc : Location)
    {entries : List (String × Value)} (he : Among T entries) :
    Tame T (defineAll id loc entries) := by
  induction entries with
  | nil => exact .of_pure trivial
  | cons e rest ih =>
    obtain ⟨he, hrest⟩ := among_cons.mp he
    exact .andThen (tame_defineIn he.2) fun _ _ => ih hrest

theorem agrees_runCase {nest : List (Option String)} {guard : Option Expr}
    (hg : ∀ e ∈ guard.toList, P.exprs e) {body : List Stmt} (hb : ∀ s ∈ body, P.stmts nest s)
    (id : ScopeId) :
    P.Agrees c (fun o => ∀ flow, o = some flow → P.Fits nest flow) (runCase ev id guard body)
      (runCase ev' id guard body) := by
  have hscope := hP.atScope id hc
  refine .inScope ((agrees_holds hev hscope hg).andThen fun goOn _ => .ite ?_ ?_)
  · exact (agrees_runStatements hP hev hscope hb).map fun flow hf _ e => Option.some.inj e ▸ hf
  · exact .of_pure fun _ e => nomatch e

omit hP hev hc in
mutual

/-- A pattern binds parts of the value. -/
theorem among_matchOnto {T : FunctionDef → Prop} {h : Heap} (hh : Among T h) :
    (p : Pattern) → {bound : OrderedMap Value} → Among T bound → {v : Value} → Among T v →
    Among T (p.matchOnto h bound v)
  | .literal l, bound, hb, v, hv => by
    unfold Pattern.matchOnto
    split
    · exact among_some.mpr hb
    · exact among_none
  | .bind name, bound, hb, v, hv => by
    unfold Pattern.matchOnto
    exact among_some.mpr (hb.insert name hv)
  | .array elements, bound, hb, v, hv => by
    unfold Pattern.matchOnto
    split
    · exact among_matchAllOnto hh elements hb (hh.array _)
    · exact among_none

theorem among_matchAllOnto {T : FunctionDef → Prop} {h : Heap} (hh : Among T h) :
    (ps : List Pattern) → {bound : OrderedMap Value} → Among T bound → {vs : List Value} →
    Among T vs → Among T (Pattern.matchAllOnto h bound vs ps)
  | [], bound, hb, vs, hv => by
    cases vs with
    | nil => exact among_some.mpr hb
    | cons v vs => exact among_none
  | p :: ps, bound, hb, vs, hv => by
    cases vs with
    | nil => exact among_none
    | cons v vs =>
      obtain ⟨hv, hvs⟩ := among_cons.mp hv
      unfold Pattern.matchAllOnto
      split
      · rename_i found e
        exact among_matchAllOnto hh ps (among_matchOnto hh p hb hv found e) hvs
      · exact among_none

end

omit hP hev hc in
theorem tame_caseNames {T : FunctionDef → Prop} {v : Value} (hv : Among T v)
    (pattern : Option Pattern) : Tame T (caseNames v pattern) := by
  cases pattern with
  | none => exact .of_pure (among_some.mpr among_emptyMap)
  | some p => exact .of_lookHeap fun h hh => among_matchOnto hh p among_emptyMap hv

theorem agrees_firstCase {nest : List (Option String)} {v : Value} (hv : Among P.functions v)
    {cases : List Case} (hg : ∀ e ∈ cases.filterMap Case.guard?, P.exprs e)
    (hb : ∀ s ∈ cases.flatMap Case.body, P.stmts nest s) :
    P.Agrees c (fun o => ∀ flow, o = some flow → P.Fits nest flow) (firstCase ev v cases)
      (firstCase ev' v cases) := by
  induction cases with
  | nil => exact .of_pure fun _ e => nomatch e
  | cons case rest ih =>
    obtain ⟨pattern, guard, body, loc⟩ := case
    have hguard : ∀ e ∈ guard.toList, P.exprs e := by
      intro e he
      obtain rfl := Option.mem_toList.mp he
      exact hg e (by simp [Case.guard?])
    have hbody : ∀ s ∈ body, P.stmts nest s := fun s h => hb s (by simp [Case.body, h])
    have hrest : P.Agrees c (fun o => ∀ flow, o = some flow → P.Fits nest flow)
        (firstCase ev v rest) (firstCase ev' v rest) := by
      refine ih (fun e he => ?_) fun s hs => hb s (by simp [hs])
      obtain ⟨k, hk, he⟩ := List.mem_filterMap.mp he
      exact hg e (List.mem_filterMap.mpr ⟨k, List.mem_cons_of_mem _ hk, he⟩)
    refine .tame_andThen (tame_caseNames hv pattern) fun names hn => ?_
    cases names with
    -- The pattern does not match.
    | none => exact hrest
    | some names =>
      refine .tame_andThen (tame_newChild _) fun id _ => ?_
      refine .tame_andThen (tame_defineAll id loc (among_some.mp hn).toList) fun _ _ => ?_
      refine (agrees_runCase hP hev hc hguard hbody id).andThen fun flow hf => ?_
      cases flow with
      -- The pattern matches and the condition fails.
      | none => exact hrest
      | some flow => exact .of_pure hf

theorem agrees_choose {nest : List (Option String)} {e : Expr} {cases : List Case}
    (he : ∀ e' ∈ e :: cases.filterMap Case.guard?, P.exprs e')
    (hb : ∀ s ∈ cases.flatMap Case.body, P.stmts nest s) :
    P.Agrees c (P.Fits nest) (choose ev e cases) (choose ev' e cases) := by
  obtain ⟨he, hg⟩ := List.forall_mem_cons.mp he
  refine (hev.expr hc he).andThen fun v hv => ?_
  refine (agrees_firstCase hP hev hc hv hg hb).andThen fun flow hf => ?_
  split
  · exact .of_pure (hf _ rfl)
  · refine .tame_andThen (tame_print v) fun _ _ => .of_fail nofun

/-! ### Statements -/

omit hP hev hc in
/-- Names beyond the elements are bound to null. -/
theorem tame_bindElements {T : FunctionDef → Prop} {bind : String → Value → Eval Unit}
    (hb : ∀ n v, Among T v → Tame T (bind n v)) (names : List String) {vs : List Value}
    (hvs : Among T vs) : Tame T (bindElements bind names vs) := by
  induction names generalizing vs with
  | nil => exact .of_pure trivial
  | cons n ns ih =>
    cases vs with
    | nil => exact .andThen (hb n .null among_null) fun _ _ => ih among_nil
    | cons v vs =>
      obtain ⟨hv, hvs⟩ := among_cons.mp hvs
      exact .andThen (hb n v hv) fun _ _ => ih hvs

omit hP hev hc in
theorem tame_bindMembers {T : FunctionDef → Prop} {bind : String → Value → Eval Unit}
    (hb : ∀ n v, Among T v → Tame T (bind n v)) (r : Ref) (names : List String) :
    Tame T (bindMembers bind r names) := by
  induction names with
  | nil => exact .of_pure trivial
  | cons n ns ih =>
    refine .andThen (.of_lookHeap fun h hh => ((hh.object r).get? n).ofOption) fun v hv => ?_
    exact .andThen (hb n v hv) fun _ _ => ih

omit hP hev hc in
/-- Names bound one by one to parts of a value. -/
theorem tame_takeApart {T : FunctionDef → Prop} (p : Destructure) (v : Value) (loc : Location)
    {bind : String → Value → Eval Unit} (hb : ∀ n v, Among T v → Tame T (bind n v)) :
    Tame T (takeApart p v loc bind) := by
  unfold takeApart
  split
  · exact .andThen (.of_lookHeap fun h hh => hh.array _) fun vs hvs => tame_bindElements hb _ hvs
  · exact .of_fail nofun
  · exact tame_bindMembers hb ..
  · exact .of_fail nofun

omit hP hev hc in
theorem tame_declare {T : FunctionDef → Prop} (kind : DeclKind) (name : String) {v : Value}
    (hv : Among T v) (loc : Location) : Tame T (declare kind name v loc) := by
  cases kind with
  | «global» => exact tame_defineIn hv
  | «let» | «const» => exact tame_define hv
  | «set» => exact tame_setVariable hv

omit hP hev hc in
theorem tame_storeAt {T : FunctionDef → Prop} (target key : Value) {v : Value} (hv : Among T v)
    (targetLoc keyLoc : Location) : Tame T (storeAt target key v targetLoc keyLoc) := by
  unfold storeAt
  split
  · split
    · exact .of_fail nofun
    · exact .ite (.of_fail nofun) (tame_storeElement _ _ hv _)
  · exact tame_storeMember _ _ hv
  · exact .of_fail nofun

omit hP hev hc in
/-- What a tame computation does before a statement ends with a value. -/
theorem agrees_ending {α : Type} [Carries α] {nest : List (Option String)} {x : Eval α}
    (hx : Tame P.functions x) {v : Value} (hv : Among P.functions v) :
    P.Agrees c (P.Fits nest) (do let _ ← x; return .normal v) (do let _ ← x; return .normal v) :=
  .tame_andThen hx fun _ _ => .of_pure hv

/-- A loop under a label is run with the label, any other statement without. -/
theorem agrees_labeled {nest : List (Option String)} {loc : Location} {label : String} {s : Stmt}
    (hs : P.stmts nest (.labeled loc label s)) :
    P.Agrees c (P.Fits nest) (labeled ev (some label) s) (labeled ev' (some label) s) := by
  have hexprs : ∀ e ∈ (Stmt.labeled loc label s).exprs, P.exprs e := fun e h => hP.expr hs h
  have hinside (s' : Stmt) (h : s' ∈ (Stmt.labeled loc label s).inside) := hP.inside hs h
  cases s with
  | whileLoop loc test body =>
    dsimp only [labeled]
    rw [hev.bound]
    exact agrees_rounds hP hev hc (fun e he => hexprs e (by simpa using he)) hinside _
      trivial
  | loop loc body =>
    dsimp only [labeled]
    rw [hev.bound]
    exact agrees_rounds hP hev hc (by simp) hinside _ trivial
  | forEach loc name e body =>
    exact agrees_forEach hP hev hc name (hexprs e (by simp)) hinside
  -- Anything else runs as it would without the label.
  | _ => exact hev.stmt hc (hinside _ (by simp [Stmt.inside, Stmt.parts]))

theorem agrees_cond {nest : List (Option String)} {loc : Location} {test : Expr}
    {yes : List Stmt} {no : Else} (hs : P.stmts nest (.cond loc test yes no)) :
    P.Agrees c (P.Fits nest) (statement ev (.cond loc test yes no))
      (statement ev' (.cond loc test yes no)) := by
  have hinside (s' : Stmt) (h : s' ∈ yes ++ no.parts) : P.stmts nest s' := hP.inside hs h
  have hyes : ∀ s ∈ yes, P.stmts nest s := fun s h => hinside s (by simp [h])
  have hno : ∀ s ∈ no.parts, P.stmts nest s := fun s h => hinside s (by simp [h])
  refine (hev.expr hc (hP.expr hs (by simp))).andThen fun v _ => .ite ?_ ?_
  · exact agrees_block hP hev hc hyes
  · cases no with
    | nothing => exact .of_pure trivial
    | block body => exact agrees_block hP hev hc hno
    | elseIf next => exact hev.stmt hc (hno next (by simp [Else.parts]))

/-- **Statements.** An import is treated apart, since what it runs is not part of the program. -/
theorem agrees_statement {nest : List (Option String)} {s : Stmt} (hs : P.stmts nest s)
    (hload : ∀ loc path name, s ≠ .load loc path name) :
    P.Agrees c (P.Fits nest) (statement ev s) (statement ev' s) := by
  have hexpr (e : Expr) (h : e ∈ s.exprs) := hev.expr hc (hP.expr hs h)
  have hinside (s' : Stmt) (h : s' ∈ s.inside) := hP.inside hs h
  cases s with
  | declare loc kind target e exported =>
    refine (hexpr e (by simp)).andThen fun v hv => ?_
    cases target with
    | name n => exact agrees_ending (tame_declare kind n hv loc) hv
    | pattern p =>
      exact agrees_ending (tame_takeApart p v loc fun n w hw => tame_declare kind n hw loc) hv
  | destructure loc p e =>
    refine (hexpr e (by simp)).andThen fun v hv => ?_
    exact agrees_ending (tame_takeApart p v _ fun n w hw => tame_setVariable hw) hv
  | setProperty loc e name value =>
    refine (hexpr e (by simp)).andThen fun target _ => ?_
    refine (hexpr value (by simp)).andThen fun v hv => ?_
    split
    · exact agrees_ending (tame_modifyObject _ fun es h => h.insert name hv) hv
    · exact .of_fail (by rintro ⟨⟩)
  | setIndex loc e index value =>
    refine (hexpr e (by simp)).andThen fun target _ => ?_
    refine (hexpr index (by simp)).andThen fun key _ => ?_
    refine (hexpr value (by simp)).andThen fun v hv => ?_
    exact agrees_ending (tame_storeAt target key hv _ _) hv
  | function loc fn exported =>
    refine .tame_andThen (tame_newClosure (hP.declared hs (by simp [Stmt.functions])))
      fun v hv => ?_
    exact agrees_ending (tame_define hv) among_null
  | cond loc test yes no => exact agrees_cond hP hev hc hs
  | guard loc test no =>
    refine (hexpr test (by simp)).andThen fun v _ => .ite (.of_pure trivial) ?_
    refine (agrees_block hP hev hc hinside).andThen fun flow hf => ?_
    -- A guard whose body comes to its end is an error.
    split
    · exact .of_fail (by rintro ⟨⟩)
    · exact .of_pure hf
  | whileLoop loc test body =>
    dsimp only [statement]
    rw [hev.bound]
    refine agrees_rounds hP hev hc (fun e he => hP.expr hs ?_) hinside _ trivial
    simpa using he
  | forEach loc name e body =>
    exact agrees_forEach hP hev hc name (hP.expr hs (by simp)) hinside
  | loop loc body =>
    dsimp only [statement]
    rw [hev.bound]
    exact agrees_rounds hP hev hc (by simp) hinside _ trivial
  | labeled loc label body => exact agrees_labeled hP hev hc hs
  | breakTo loc label => exact .of_pure (hP.jump hs (by simp [Stmt.jumps]))
  | continueTo loc label => exact .of_pure (hP.jump hs (by simp [Stmt.jumps]))
  | attempt loc body name handler =>
    exact agrees_attempt hP hev hc (fun s h => hinside s (by simp [Stmt.inside, Stmt.parts, h]))
      name fun s h => hinside s (by simp [Stmt.inside, Stmt.parts, h])
  | call loc callee args dest =>
    refine (agrees_callExpr hev hc (fun e he => hP.expr hs he) false loc).andThen fun v hv => ?_
    cases dest with
    | none => exact agrees_ending (.of_pure (a := ()) trivial) hv
    | some n => exact agrees_ending (tame_define hv) hv
  | giveBack loc e =>
    cases e with
    | none => exact .of_pure trivial
    | some e => exact (hexpr e (by simp)).andThen fun v hv => .of_pure hv
  | print loc e =>
    refine (hexpr e (by simp)).andThen fun v hv => ?_
    exact .tame_andThen (tame_print v) fun text _ => agrees_ending (.of_overPrinter _) hv
  | raise loc e =>
    refine (hexpr e (by simp)).andThen fun v _ => ?_
    exact .tame_andThen (tame_print v) fun text _ => .of_fail (by rintro ⟨⟩)
  | choose loc e cases => exact agrees_choose hP hev hc (fun e he => hP.expr hs he) hinside
  | load loc path name => exact absurd rfl (hload loc path name)
  | expr loc e => exact (hexpr e (by simp)).andThen fun v hv => .of_pure hv

end ScriptLang.Regime
