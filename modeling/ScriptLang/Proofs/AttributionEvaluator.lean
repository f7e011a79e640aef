import ScriptLang.Proofs.Attribution
import ScriptLang.Proofs.RegimeEvaluator

/-!
# The evaluator accounts for what it does

The walk over the rules of the language for attributions. Over an evaluator that accounts for what
it does (`Attribution.Evaluates`), so do the rules:

* `Attribution.accounts_expression` and `Attribution.accounts_callValue` — expressions and calls;
* `Attribution.accounts_statement` — statements other than imports.

What is known of the syntax is that its locations are places in files that have been read. Whatever
runs may read more files, so this, and what is known of values, is carried over to what has been
read since (`Leads.expr`, `Holds.grow`).
-/

namespace ScriptLang.Attribution

open Eval

variable {A : Attribution} {ev : Evaluator} (hev : A.Evaluates ev) {c : Context} {S : Loaded}
include hev

/-! ### Arguments and callees -/

theorem accounts_argumentsOnto {done : List Value} (hd : A.Holds S done) {elements : List Element}
    (he : ∀ e ∈ elements.map Element.value, e.Located (A.places S)) :
    A.Accounts c S A.Holds (argumentsOnto ev done elements) := by
  induction elements generalizing S done with
  | nil => exact .of_pure (among_reverse.mpr hd)
  | cons e rest ih =>
    obtain ⟨he, hrest⟩ := List.forall_mem_cons.mp he
    cases e with
    | item e =>
      refine (hev.expr he).andThen fun hS v hv => ?_
      exact ih (among_cons.mpr ⟨hv, hd.grow hS⟩) (hS.exprs hrest)
    | spread e =>
      refine (hev.expr he).andThen fun hS v hv => ?_
      -- Spreading what is no array is an error at the expression.
      refine .tame_andThen (tame_spread v (by rintro ⟨⟩) _)
        (.of_confined (confined_spread ..) (hS.expr he).here) fun vs hvs => ?_
      exact ih (among_append.mpr ⟨among_reverse.mpr hvs, hd.grow hS⟩) (hS.exprs hrest)

theorem accounts_callExpr {callee : Expr} {args : List Element} (safe : Bool) {loc : Location}
    (he : ∀ e ∈ callee :: args.map Element.value, e.Located (A.places S)) (hloc : A.places S loc) :
    A.Accounts c S A.Holds (callExpr ev callee args safe loc) := by
  obtain ⟨hcallee, hargs⟩ := List.forall_mem_cons.mp he
  refine (hev.expr hcallee).andThen fun hS f hf => .ite (.of_pure trivial) ?_
  refine .tame_andThen (tame_requireCallable ..)
    (.of_confined (confined_requireCallable ..) (hS.places hloc)) fun _ _ => ?_
  refine (accounts_argumentsOnto hev among_nil (hS.exprs hargs)).andThen fun hS' vs hvs => ?_
  exact hev.call (hf.grow hS') hvs ((hS.trans hS').places hloc)

/-! ### Expressions -/

theorem accounts_elementsOnto {done : Array Value} (hd : A.Holds S done) {items : List Element}
    (he : ∀ e ∈ items.map Element.value, e.Located (A.places S)) :
    A.Accounts c S A.Holds (elementsOnto ev done items) := by
  -- By induction on the elements. Computing one may load files, so what was held of those before
  -- and of the expressions that are left is carried over to the larger set of places each time.
  induction items generalizing S done with
  | nil => exact .of_pure hd
  | cons e rest ih =>
    obtain ⟨he, hrest⟩ := List.forall_mem_cons.mp he
    cases e with
    | item e =>
      refine (hev.expr he).andThen fun hS v hv => ?_
      exact ih (Among.push (hd.grow hS) hv) (hS.exprs hrest)
    | spread e =>
      refine (hev.expr he).andThen fun hS v hv => ?_
      refine .tame_andThen (tame_spread v (by rintro ⟨⟩) _)
        (.of_confined (confined_spread ..) (hS.expr he).here) fun vs hvs => ?_
      refine ih ?_ (hS.exprs hrest)
      unfold Holds
      rw [← among_toList, Array.toList_append, among_append]
      exact ⟨hd.grow hS, hvs⟩

theorem accounts_entriesOnto {done : OrderedMap Value} (hd : A.Holds S done) {entries : List Entry}
    (he : ∀ e ∈ entries.map Entry.value, e.Located (A.places S)) :
    A.Accounts c S A.Holds (entriesOnto ev done entries) := by
  induction entries generalizing S done with
  | nil => exact .of_pure hd
  | cons e rest ih =>
    obtain ⟨he, hrest⟩ := List.forall_mem_cons.mp he
    cases e with
    | property key e =>
      refine (hev.expr he).andThen fun hS v hv => ?_
      exact ih (Among.insert (hd.grow hS) key hv) (hS.exprs hrest)
    | spread e =>
      refine (hev.expr he).andThen fun hS v hv => ?_
      split
      · refine .tame_andThen (.of_lookHeap fun h hh => (hh.object _).toList)
          (.of_total fun _ => .of_lookHeap _) fun es hes => ?_
        exact ih (Among.insertAll (hd.grow hS) hes) (hS.exprs hrest)
      · exact .of_fail (hS.expr he).here

theorem accounts_partsOnto (done : String) {parts : List Part}
    (he : ∀ e ∈ parts.filterMap Part.value?, e.Located (A.places S)) :
    A.Accounts c S A.Holds (partsOnto ev done parts) := by
  induction parts generalizing S done with
  | nil => exact .of_pure trivial
  | cons p rest ih =>
    cases p with
    | text t => exact ih (done ++ t) he
    | expr e =>
      obtain ⟨he, hrest⟩ := List.forall_mem_cons.mp he
      refine (hev.expr he).andThen fun hS v hv => ?_
      refine .tame_andThen (tame_print v) (.of_total fun _ => confined_print v) fun t _ => ?_
      exact ih (done ++ t) (hS.exprs hrest)

/-- **Expressions.** -/
theorem accounts_expression {e : Expr} (he : e.Located (A.places S)) :
    A.Accounts c S A.Holds (expression ev e) := by
  have hparts : ∀ e' ∈ e.parts, e'.Located (A.places S) := fun e' h => he.part h
  have hloc : A.places S e.location := he.here
  cases e with
  | ident loc name =>
    exact .of_tame (tame_nameValue name loc) (.of_confined (confined_nameValue name loc) hloc)
  | literal loc l => exact .of_pure (among_ofLiteral l)
  | binary loc op l r =>
    simp only [Expr.parts, List.forall_mem_cons] at hparts
    refine (hev.expr hparts.1).andThen fun hS a ha => ?_
    refine (hev.expr (hS.expr hparts.2.1)).andThen fun hS' b hb => ?_
    exact .of_tame (tame_combine op (ha.grow hS') hb loc)
      (.of_confined (confined_combine op a b loc) ((hS.trans hS').places hloc))
  | unary loc op e =>
    simp only [Expr.parts, List.forall_mem_cons] at hparts
    refine (hev.expr hparts.1).andThen fun hS v _ => ?_
    exact .of_tame (tame_applyUnary op v loc)
      (.of_confined (confined_applyUnary op v loc) (hS.places hloc))
  | array loc items =>
    refine (accounts_elementsOnto hev among_emptyArray hparts).andThen fun hS vs hvs => ?_
    exact .of_tame (tame_newArray hvs) (.of_total fun _ => confined_newArray vs)
  | object loc entries =>
    refine (accounts_entriesOnto hev among_emptyMap hparts).andThen fun hS es hes => ?_
    exact .of_tame (tame_newObject hes) (.of_total fun _ => confined_newObject es)
  | property loc e name safe =>
    simp only [Expr.parts, List.forall_mem_cons] at hparts
    refine (hev.expr hparts.1).andThen fun hS v _ => ?_
    exact .of_tame (tame_memberOf v name safe loc)
      (.of_confined (confined_memberOf v name safe loc) (hS.places hloc))
  | index loc e index safe =>
    simp only [Expr.parts, List.forall_mem_cons] at hparts
    refine (hev.expr hparts.1).andThen fun hS v _ => .ite (.of_pure trivial) ?_
    refine (hev.expr (hS.expr hparts.2.1)).andThen fun hS' key _ => ?_
    -- An error of an index is at what is indexed.
    exact .of_tame (tame_elementOf v key _)
      (.of_confined (confined_elementOf v key _) ((hS.trans hS').expr hparts.1).here)
  | member loc module name =>
    exact .of_tame (tame_moduleMember module name loc)
      (.of_confined (confined_moduleMember module name loc) hloc)
  | call loc callee args safe => exact accounts_callExpr hev safe hparts hloc
  | template loc parts =>
    exact (accounts_partsOnto hev "" hparts).andThen fun _ t _ => .of_pure trivial
  | function loc fn =>
    exact .of_tame (tame_newClosure (he.function (by simp [Expr.functions])))
      (.of_total fun _ => confined_newClosure fn)
  | inlineIf loc test yes no =>
    simp only [Expr.parts, List.forall_mem_cons] at hparts
    refine (hev.expr hparts.1).andThen fun hS v _ => ?_
    exact .ite (hev.expr (hS.expr hparts.2.1)) (hev.expr (hS.expr hparts.2.2.1))
  | pipe loc e callee args =>
    obtain ⟨he, hparts⟩ := List.forall_mem_cons.mp hparts
    obtain ⟨hcallee, hargs⟩ := List.forall_mem_cons.mp hparts
    refine (hev.expr he).andThen fun hS₁ v hv => ?_
    refine (hev.expr (hS₁.expr hcallee)).andThen fun hS₂ f hf => ?_
    refine .tame_andThen (tame_requireCallable ..)
      (.of_confined (confined_requireCallable ..) ((hS₁.trans hS₂).places hloc)) fun _ _ => ?_
    refine (accounts_argumentsOnto hev among_nil ((hS₁.trans hS₂).exprs hargs)).andThen
      fun hS₃ vs hvs => ?_
    refine hev.call (hf.grow hS₃) ?_ (((hS₁.trans hS₂).trans hS₃).places hloc)
    exact among_cons.mpr ⟨hv.grow (hS₂.trans hS₃), hvs⟩

/-! ### Bodies -/

omit hev in
/-- A function is declared beforehand at the place where it stands. -/
theorem raisesAt_hoist {body : List Stmt} (hb : ∀ s ∈ body, s.Located (A.places S)) :
    RaisesAt (A.places S) (hoist body) := by
  induction body with
  | nil => exact .of_pure ()
  | cons s rest ih =>
    obtain ⟨hs, hrest⟩ := List.forall_mem_cons.mp hb
    cases s with
    | function loc fn exported =>
      unfold hoist
      split
      · exact ih hrest
      · refine .andThen (.of_total fun _ => confined_declared _) fun known => .ite (ih hrest) ?_
        refine .andThen (.of_total fun _ => confined_newClosure fn) fun v => ?_
        exact .andThen (.define _ _ _ hs.here) fun _ => ih hrest
    | _ => exact ih hrest

theorem accounts_runFrom {body : List Stmt} (hb : ∀ s ∈ body, s.Located (A.places S)) {last : Value}
    (hl : A.Holds S last) : A.Accounts c S A.Fits (runFrom ev body last) := by
  induction body generalizing S last with
  | nil => exact .of_pure hl
  | cons s rest ih =>
    obtain ⟨hs, hrest⟩ := List.forall_mem_cons.mp hb
    refine (hev.stmt hs).andThen fun hS flow hf => ?_
    cases flow with
    | normal v => exact ih (hS.stmts hrest) hf
    | _ => exact .of_pure hf

theorem accounts_runStatements {body : List Stmt} (hb : ∀ s ∈ body, s.Located (A.places S)) :
    A.Accounts c S A.Fits (runStatements ev body) := by
  refine .tame_andThen (Regime.tame_hoist fun s hs fn hfn => (hb s hs).function hfn)
    (raisesAt_hoist hb) fun _ _ => ?_
  exact accounts_runFrom hev hb trivial

/-- Statements in a scope that was made for them. -/
theorem accounts_inScope {body : List Stmt} (hb : ∀ s ∈ body, s.Located (A.places S))
    (id : ScopeId) : A.Accounts c S A.Fits (inScope id (runStatements ev body)) :=
  .inScope (accounts_runStatements hev hb)

/-- Statements in a block of the current scope. -/
theorem accounts_block {body : List Stmt} (hb : ∀ s ∈ body, s.Located (A.places S)) :
    A.Accounts c S A.Fits (inBlock (runStatements ev body)) :=
  .inBlock fun _ => accounts_runStatements hev hb

omit hev in
/-- A jump that no loop has caught is an error where the jump stands. -/
theorem accounts_atBoundary {normal : Value → Value}
    (hn : ∀ v, A.Holds S v → A.Holds S (normal v)) {flow : Flow} (hf : A.Fits S flow) :
    A.Accounts c S A.Holds (flow.atBoundary normal) := by
  cases flow with
  | normal v => exact .of_pure (hn v hf)
  | giveBack v => exact .of_pure hf
  | breakTo j => exact .of_fail hf
  | continueTo j => exact .of_fail hf

/-! ### Calls -/

theorem accounts_bindParams {loc : Location} (hloc : A.places S loc) {params : List Param}
    (hd : ∀ e ∈ params.filterMap Param.default?, e.Located (A.places S)) {args : List Value}
    (ha : A.Holds S args) : A.Accounts c S A.Holds (bindParams ev loc params args) := by
  induction params generalizing S args with
  | nil => exact .of_pure ha
  | cons p ps ih =>
    have hps : ∀ e ∈ ps.filterMap Param.default?, e.Located (A.places S) := by
      intro e he
      obtain ⟨q, hq, he⟩ := List.mem_filterMap.mp he
      exact hd e (List.mem_filterMap.mpr ⟨q, List.mem_cons_of_mem _ hq, he⟩)
    cases args with
    | cons v args =>
      obtain ⟨hv, hargs⟩ := among_cons.mp ha
      exact .tame_andThen (tame_define hv) (.define _ _ _ hloc) fun _ _ => ih hloc hps hargs
    | nil =>
      -- Without an argument there is a default, which may have read more, or `null`.
      have hnext {S' : Loaded} (hS : A.Leads S S') (v : Value) (hv : A.Holds S' v) :
          A.Accounts c S' A.Holds (do define p.name v .set loc; bindParams ev loc ps []) :=
        .tame_andThen (tame_define hv) (.define _ _ _ (hS.places hloc)) fun _ _ =>
          ih (hS.places hloc) (hS.exprs hps) among_nil
      unfold bindParams
      dsimp only
      split
      · rename_i e he
        exact (hev.expr (hd e (List.mem_filterMap.mpr ⟨p, by simp, he⟩))).andThen hnext
      · exact hnext .refl .null trivial

omit hev in
theorem raisesAt_bindRest (name : Option String) (args : List Value) {loc : Location}
    (hloc : A.places S loc) : RaisesAt (A.places S) (bindRest name args loc) := by
  cases name with
  | none => exact .of_pure ()
  | some name =>
    exact .andThen (.of_total fun _ => confined_newList args) fun v => .define _ _ _ hloc

/-- **Calls.** What is wrong with the arguments is an error at the place of the call, before its
frame is pushed; what is wrong in the body is an error that the frame is recorded on. -/
theorem accounts_callClosure {fn : FunctionDef} (hfn : fn.Located (A.places S)) (home : ScopeId)
    {args : List Value} (ha : A.Holds S args) {loc : Location} (hloc : A.places S loc) :
    A.Accounts c S A.Holds (callClosure ev fn home args loc) := by
  -- Too few and too many arguments are refused at the place of the call.
  refine .ite (.of_fail hloc) (.ite (.of_fail hloc) (.inFunction ?_))
  refine .tame_andThen (tame_newChildOf ..) (.newChildOf ..) fun id _ => .inScope ?_
  have hdefaults : ∀ e ∈ fn.defaults, e.Located (A.places S) := fun e he => hfn.default he
  refine (accounts_bindParams hev hloc hdefaults ha).andThen fun hS remaining hr => ?_
  refine .tame_andThen (Regime.tame_bindRest _ hr loc)
    (raisesAt_bindRest _ _ (hS.places hloc)) fun _ _ => ?_
  -- From here on the frame is there.
  refine .inCall (hS.places hloc) fun calls _ => ?_
  have hbody : ∀ s ∈ fn.body, s.Located (A.places S) := fun s hs => hfn.body hs
  refine (accounts_runStatements hev (hS.stmts hbody)).andThen fun _ flow hf => ?_
  exact accounts_atBoundary (fun _ _ => among_null) hf

/-! ### Library functions that call back -/

theorem accounts_callCallback {f : Argument.Callback} (hf : A.Holds S f) {args : List Value}
    (ha : A.Holds S args) {loc : Location} (hloc : A.places S loc) :
    A.Accounts c S A.Holds (Argument.callCallback ev f args loc) := by
  refine hev.call hf ?_ hloc
  split
  · exact ha
  · exact Among.of_subset ha fun v hv => List.mem_of_mem_take hv

theorem accounts_visitFrom {σ τ : Type} [Carries σ] [Carries τ] (r : Ref) {whole : Value}
    (hw : A.Holds S whole) {f : Argument.Callback} (hf : A.Holds S f) {loc : Location}
    (hloc : A.places S loc) {visit : σ → Nat → Value → Value → σ ⊕ τ}
    (hv : ∀ {S' : Loaded} acc i item v, A.Holds S' acc → A.Holds S' item → A.Holds S' v →
      A.Holds S' (visit acc i item v))
    (bound i : Nat) {acc : σ} (ha : A.Holds S acc) :
    A.Accounts c S A.Holds (ArrayFn.visitFrom ev r whole f loc visit bound i acc) := by
  induction bound generalizing S i acc with
  | zero => exact .of_halt
  | succ bound ih =>
    refine .tame_andThen (tame_element? r i) (.of_total fun _ => confined_element? r i)
      fun item hi => ?_
    split
    · exact .of_pure (among_inl.mpr ha)
    · rename_i item
      have hitem := among_some.mp hi
      -- The callback may import files, so everything is carried over to what has been read since.
      refine (accounts_callCallback hev hf ?_ hloc).andThen fun hS result hres => ?_
      · exact among_cons.mpr ⟨hitem, among_cons.mpr ⟨trivial, among_cons.mpr ⟨hw, among_nil⟩⟩⟩
      · have h := hv acc i item result (ha.grow hS) (Holds.grow hitem hS) hres
        split
        · rename_i e
          rw [e] at h
          exact ih (hw.grow hS) (hf.grow hS) (hS.places hloc) _ (among_inl.mp h)
        · rename_i e
          rw [e] at h
          exact .of_pure h

theorem accounts_visitAll {σ τ : Type} [Carries σ] [Carries τ] (function : String)
    {args : List Value} (hargs : A.Holds S args) {loc : Location} (hloc : A.places S loc)
    {start : σ} (hs : A.Holds S start) {visit : σ → Nat → Value → Value → σ ⊕ τ}
    (hv : ∀ {S' : Loaded} acc i item v, A.Holds S' acc → A.Holds S' item → A.Holds S' v →
      A.Holds S' (visit acc i item v)) :
    A.Accounts c S A.Holds (ArrayFn.visitAll ev function args loc start visit) := by
  have hn := Argument.among_nth hargs
  refine .tame_andThen (Argument.tame_array ..) (.of_confined (Argument.confined_array ..) hloc)
    fun r _ => ?_
  refine .tame_andThen (Argument.tame_callback _ (hn 2) ..)
    (.of_confined (Argument.confined_callback ..) hloc) fun f hf => ?_
  exact accounts_visitFrom hev r (hn 1) hf hloc hv _ _ hs

theorem accounts_foldFrom (r : Ref) {whole : Value} (hw : A.Holds S whole) {f : Argument.Callback}
    (hf : A.Holds S f) {loc : Location} (hloc : A.places S loc) (bound i : Nat) {acc : Value}
    (ha : A.Holds S acc) :
    A.Accounts c S A.Holds (ArrayFn.foldFrom ev r whole f loc bound i acc) := by
  induction bound generalizing S i acc with
  | zero => exact .of_halt
  | succ bound ih =>
    refine .tame_andThen (tame_element? r i) (.of_total fun _ => confined_element? r i)
      fun item hi => ?_
    split
    · exact .of_pure ha
    · refine (accounts_callCallback hev hf ?_ hloc).andThen fun hS acc hacc => ?_
      · refine among_cons.mpr ⟨ha, among_cons.mpr ⟨among_some.mp hi, among_cons.mpr ⟨trivial, ?_⟩⟩⟩
        exact among_cons.mpr ⟨hw, among_nil⟩
      · exact ih (hw.grow hS) (hf.grow hS) (hS.places hloc) _ hacc

theorem accounts_arrayFn (f : ArrayFn) {args : List Value} (ha : A.Holds S args) {loc : Location}
    (hloc : A.places S loc) : A.Accounts c S A.Holds (f.run ev args loc) := by
  have hn := Argument.among_nth ha
  cases f with
  | map =>
    refine (accounts_visitAll hev "map" ha hloc among_emptyArray ?_).andThen fun hS out ho => ?_
    · exact fun acc _ _ v hacc _ hv => among_inl.mpr (Among.push hacc hv)
    · exact .of_tame (tame_newArray (ArrayFn.among_gathered ho))
        (.of_total fun _ => confined_newArray _)
  | filter =>
    refine (accounts_visitAll hev "filter" ha hloc among_emptyArray ?_).andThen fun hS out ho => ?_
    · intro S' acc _ item v hacc hitem _
      refine among_inl.mpr ?_
      split
      · exact Among.push hacc hitem
      · exact hacc
    · exact .of_tame (tame_newArray (ArrayFn.among_gathered ho))
        (.of_total fun _ => confined_newArray _)
  | forEach =>
    refine (accounts_visitAll hev "for_each" ha hloc (among_plain ()) ?_).andThen
      fun hS _ _ => .of_pure trivial
    exact fun _ _ _ _ _ _ _ => among_inl.mpr trivial
  | find =>
    refine (accounts_visitAll hev "find" ha hloc (among_plain ()) ?_).andThen fun hS out ho => ?_
    · intro S' _ _ item v _ hitem _
      split
      · exact among_inr.mpr hitem
      · exact among_inl.mpr trivial
    · split
      · exact .of_pure (among_inr.mp ho)
      · exact .of_pure trivial
  | findIndex =>
    refine (accounts_visitAll hev "find_index" ha hloc (among_plain ()) ?_).andThen
      fun hS out ho => ?_
    · intro S' _ i item v _ _ _
      split
      · exact among_inr.mpr trivial
      · exact among_inl.mpr trivial
    · split <;> exact .of_pure trivial
  | reduce =>
    refine .tame_andThen (Argument.tame_array ..) (.of_confined (Argument.confined_array ..) hloc)
      fun r _ => ?_
    refine .tame_andThen (Argument.tame_callback _ (hn 2) ..)
      (.of_confined (Argument.confined_callback ..) hloc) fun g hg => ?_
    split
    · rename_i start e
      exact accounts_foldFrom hev r (hn 1) hg hloc _ _ (Argument.among_given? ha 3 start e)
    · refine .tame_andThen (tame_element? r 0) (.of_total fun _ => confined_element? r 0)
        fun start hs => ?_
      split
      · exact accounts_foldFrom hev r (hn 1) hg hloc _ _ (among_some.mp hs)
      · exact .of_refuse hloc
  -- The others call nothing back.
  | _ =>
    exact .of_tame (ArrayFn.tame_run ev rfl args loc)
      (.of_confined (ArrayFn.confined_run ev rfl args loc) hloc)

theorem accounts_mapEntries {whole : Value} (hw : A.Holds S whole) {f : Argument.Callback}
    (hf : A.Holds S f) {loc : Location} (hloc : A.places S loc) {entries : List (String × Value)}
    (he : A.Holds S entries) {done : OrderedMap Value} (hd : A.Holds S done) :
    A.Accounts c S A.Holds (ObjectFn.mapEntries ev whole f loc entries done) := by
  induction entries generalizing S done with
  | nil => exact .of_pure hd
  | cons e rest ih =>
    obtain ⟨he, hrest⟩ := among_cons.mp he
    refine (accounts_callCallback hev hf ?_ hloc).andThen fun hS v hv => ?_
    · exact among_cons.mpr ⟨he.2, among_cons.mpr ⟨trivial, among_cons.mpr ⟨hw, among_nil⟩⟩⟩
    · exact ih (hw.grow hS) (hf.grow hS) (hS.places hloc) (Holds.grow hrest hS)
        (Among.insert (hd.grow hS) _ hv)

theorem accounts_objectFn (f : ObjectFn) {args : List Value} (ha : A.Holds S args) {loc : Location}
    (hloc : A.places S loc) : A.Accounts c S A.Holds (f.run ev args loc) := by
  have hn := Argument.among_nth ha
  cases f with
  | mapValues =>
    refine .tame_andThen (ObjectFn.tame_objectArg ..)
      (.of_confined (ObjectFn.confined_objectArg ..) hloc) fun source _ => ?_
    refine .tame_andThen (Argument.tame_callback _ (hn 2) ..)
      (.of_confined (Argument.confined_callback ..) hloc) fun g hg => ?_
    refine .tame_andThen (tame_object source) (.of_total fun _ => confined_object source)
      fun es hes => ?_
    refine (accounts_mapEntries hev (hn 1) hg hloc (Among.toList hes) among_emptyMap).andThen ?_
    exact fun _ es h => .of_tame (tame_newObject h) (.of_total fun _ => confined_newObject es)
  | _ =>
    exact .of_tame (ObjectFn.tame_run ev (by simp) args loc)
      (.of_confined (ObjectFn.confined_run ev (by simp) args loc) hloc)

/-- An assertion may handle an error of the function that it calls. -/
theorem accounts_assertFn (f : AssertFn) {args : List Value} (ha : A.Holds S args) {loc : Location}
    (hloc : A.places S loc) : A.Accounts c S A.Holds (f.run ev args loc) := by
  have hn := Argument.among_nth ha
  cases f with
  | throws =>
    refine .ite (.of_refuse hloc) ?_
    have hcall : A.Accounts c S A.Holds
        (some <$> ev.call (Argument.nth args 1) [] loc "assert.throws") :=
      (hev.call (hn 1) among_nil hloc).map fun _ v hv => among_some.mpr hv
    -- The error is not looked at: what counts is whether there was one.
    refine (Accounts.handled hcall fun _ d => .of_pure among_none).andThen fun hS returned _ => ?_
    split
    · exact .of_pure trivial
    · exact .of_tame (AssertFn.tame_failWith _ _ _ (.of_pure trivial))
        (.of_confined (AssertFn.confined_failWith _ _ _ (.of_pure _)) (hS.places hloc))
  | _ =>
    exact .of_tame (AssertFn.tame_run ev (by simp) args loc)
      (.of_confined (AssertFn.confined_run ev (by simp) args loc) hloc)

theorem accounts_builtin (b : Builtin) {args : List Value} (ha : A.Holds S args) {loc : Location}
    (hloc : A.places S loc) : A.Accounts c S A.Holds (b.call ev args loc) := by
  refine .ite ?_ (.of_fail hloc)
  -- A function that calls nothing back fails where it is called.
  have hrun {x : Eval Value} (ht : Tame (FunctionDef.Located (A.places S)) x)
      (hx : Confined loc x) : A.Accounts c S A.Holds x := .of_tame ht (.of_confined hx hloc)
  cases b with
  | core f => exact hrun (f.tame_run ha loc) (f.confined_run args loc)
  | array f => exact accounts_arrayFn hev f ha hloc
  | assert f => exact accounts_assertFn hev f ha hloc
  | datetime f => exact hrun (f.tame_run args loc) (f.confined_run args loc)
  | env f => exact hrun (f.tame_run ha loc) (f.confined_run args loc)
  | fs f => exact hrun (f.tame_run args loc) (f.confined_run args loc)
  | http f => exact hrun (f.tame_run args loc) (f.confined_run args loc)
  | json f => exact hrun (f.tame_run args loc) (f.confined_run args loc)
  | math f => exact hrun (f.tame_run args loc) (f.confined_run args loc)
  | object f => exact accounts_objectFn hev f ha hloc
  | path f => exact hrun (f.tame_run args loc) (f.confined_run args loc)
  | regex f => exact hrun (f.tame_run args loc) (f.confined_run args loc)
  | string f => exact hrun (f.tame_run args loc) (f.confined_run args loc)

theorem accounts_callValue {f : Value} (hf : A.Holds S f) {args : List Value} (ha : A.Holds S args)
    {loc : Location} (hloc : A.places S loc) (name : String) :
    A.Accounts c S A.Holds (callValue ev f args loc name) := by
  unfold callValue
  split
  · exact accounts_callClosure hev (among_closure.mp hf) _ ha hloc
  · exact accounts_builtin hev _ ha hloc
  · exact .of_fail hloc

/-! ### Loops -/

theorem accounts_holds {test : Option Expr} (ht : ∀ e ∈ test.toList, e.Located (A.places S)) :
    A.Accounts c S A.Holds (holds ev test) := by
  cases test with
  | none => exact .of_pure trivial
  | some e => exact (hev.expr (ht e (by simp))).andThen fun _ v _ => .of_pure trivial

theorem accounts_rounds {test : Option Expr} (ht : ∀ e ∈ test.toList, e.Located (A.places S))
    {body : List Stmt} (hb : ∀ s ∈ body, s.Located (A.places S)) (label : Option String)
    (bound : Nat) {last : Value} (hl : A.Holds S last) :
    A.Accounts c S A.Fits (rounds ev test body label bound last) := by
  -- On the bound: what follows a round are the rounds below it, which may have read more.
  induction bound generalizing S last with
  | zero => exact .of_halt
  | succ bound ih =>
    refine (accounts_holds hev ht).andThen fun hS goOn _ => .ite ?_ (.of_pure (hl.grow hS))
    refine (accounts_block hev (hS.stmts hb)).andThen fun hS' flow hf => ?_
    have hS := hS.trans hS'
    cases flow with
    | normal v => exact ih (hS.exprs ht) (hS.stmts hb) hf
    | giveBack v => exact .of_pure hf
    | breakTo j =>
      refine .of_pure ?_
      split
      · exact hl.grow hS
      · exact hf
    | continueTo j => exact .ite (ih (hS.exprs ht) (hS.stmts hb) (hl.grow hS)) (.of_pure hf)

theorem accounts_roundsOver (name : String) (r : Ref) {body : List Stmt}
    (hb : ∀ s ∈ body, s.Located (A.places S)) (label : Option String) {loc : Location}
    (hloc : A.places S loc) (bound i : Nat) {last : Value} (hl : A.Holds S last) :
    A.Accounts c S A.Fits (roundsOver ev name r body label loc bound i last) := by
  induction bound generalizing S i last with
  | zero => exact .of_halt
  | succ bound ih =>
    refine .tame_andThen (tame_element? r i) (.of_total fun _ => confined_element? r i)
      fun item hi => ?_
    split
    · exact .of_pure hl
    · refine .tame_andThen (tame_newChild _) (.newChild _) fun id _ => ?_
      refine .tame_andThen (tame_defineIn (among_some.mp hi)) (.defineIn _ _ _ _ hloc) fun _ _ => ?_
      refine (accounts_inScope hev hb id).andThen fun hS flow hf => ?_
      -- The rounds that follow start with what this one has read.
      have hnext {v : Value} (hv : A.Holds _ v) := ih (hS.stmts hb) (hS.places hloc) (i + 1) hv
      cases flow with
      | normal v => exact hnext hf
      | giveBack v => exact .of_pure hf
      | breakTo j =>
        refine .of_pure ?_
        split
        · exact hl.grow hS
        · exact hf
      | continueTo j => exact .ite (hnext (hl.grow hS)) (.of_pure hf)

theorem accounts_forEach (name : String) {e : Expr} (he : e.Located (A.places S)) {body : List Stmt}
    (hb : ∀ s ∈ body, s.Located (A.places S)) (label : Option String) :
    A.Accounts c S A.Fits (forEach ev name e body label) := by
  refine (hev.expr he).andThen fun hS v _ => ?_
  -- Only an array can be looped over.
  split
  · exact .inBlock fun id =>
      accounts_roundsOver hev name _ (hS.stmts hb) label (hS.expr he).here _ _ trivial
  · exact .of_fail (hS.expr he).here

end ScriptLang.Attribution
