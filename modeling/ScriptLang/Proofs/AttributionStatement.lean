import ScriptLang.Proofs.AttributionEvaluator
import ScriptLang.Proofs.IndexedMaps

/-!
# Statements account for what they do

The walk over the rules of statements for attributions, up to `Attribution.accounts_statement`,
which is about all statements but imports.

A handler is the one place where a location comes from an error and not from the syntax: its name
for the error is declared where the error was raised. Since it is the first name in a new scope, it
is never taken (`Scopes.planDefine_child`), so no error of the handler is at that place.
-/

namespace ScriptLang

/-- A new scope has no names. -/
theorem Scopes.planDefine_child (t : Scopes) (parent : ScopeId) (role : ScopeRole) (name : String)
    (v : Value) (kind : DeclKind) :
    (t.child parent role).2.planDefine (t.child parent role).1 name v kind =
      .ok (.bind (t.child parent role).1 name ⟨v, kind⟩) := by
  have hnew : ((t.child parent role).2.get (t.child parent role).1).vars = .empty := by
    simp [child, get]
  unfold planDefine
  rw [hnew]
  simp

namespace Eval

/-- A new scope with a name for an error. -/
def errorScope (name : String) (d : Diagnostic) : Eval ScopeId := do
  let id ← newChild .block
  let v ← newObject (.ofList (errorMembers d))
  defineIn id name v .set d.location
  return id

theorem runHandler_named (ev : Evaluator) (name : String) (handler : List Stmt) (d : Diagnostic) :
    runHandler ev (some name) handler d =
      errorScope name d >>= fun id => inScope id (runStatements ev handler) := by
  unfold errorScope
  simp only [andThen_assoc]
  rfl

/-- The name for the error is never taken. -/
theorem errorScope_ne_error (name : String) (d : Diagnostic) (m : Machine) (d' : Diagnostic)
    (m' : Machine) : errorScope name d m ≠ .error d' m' := by
  intro e
  let made := m.scopes.child m.context.scope .block
  let object := m.heap.allocObject (.ofList (errorMembers d))
  change (defineIn made.1 name object.1 .set d.location >>= fun _ => pure made.1)
    { m with heap := object.2, scopes := made.2 } = _ at e
  change andThen (defineIn made.1 name object.1 .set d.location) (fun _ => pure made.1)
    { m with heap := object.2, scopes := made.2 } = _ at e
  unfold andThen defineIn alterScopes at e
  dsimp only at e
  -- The scope has just been made, so the name is not taken.
  rw [Scopes.planDefine_child] at e
  cases e

theorem raisesAt_errorScope {Q : Location → Prop} (name : String) (d : Diagnostic) :
    RaisesAt Q (errorScope name d) := by
  have h : RaisesAt (fun _ => True) (errorScope name d) :=
    .andThen (.newChild _) fun id => .andThen (.of_total fun _ => confined_newObject _) fun v =>
      .andThen (.defineIn id name v .set trivial) fun _ => .of_pure id
  exact ⟨h.context, h.loaded, fun e => (errorScope_ne_error _ _ _ _ _ e).elim⟩

theorem tame_errorScope {T : FunctionDef → Prop} (name : String) (d : Diagnostic) :
    Tame T (errorScope name d) := by
  refine .andThen (tame_newChild _) fun id _ => ?_
  refine .andThen (tame_newObject (Among.ofList (Regime.among_errorMembers d))) fun v hv => ?_
  exact .andThen (tame_defineIn hv) fun _ _ => .of_pure trivial

end Eval

namespace Attribution

open Eval

variable {A : Attribution} {ev : Evaluator} (hev : A.Evaluates ev) {c : Context} {S : Loaded}
include hev

/-! ### Handlers and cases -/

theorem accounts_runHandler (name : Option String) {handler : List Stmt}
    (hb : ∀ s ∈ handler, s.Located (A.places S)) (d : Diagnostic) :
    A.Accounts c S A.Fits (runHandler ev name handler d) := by
  cases name with
  | none =>
    exact .tame_andThen (tame_newChild _) (.newChild _) fun id _ => accounts_inScope hev hb id
  | some n =>
    rw [runHandler_named]
    exact .tame_andThen (tame_errorScope n d) (raisesAt_errorScope n d) fun id _ =>
      accounts_inScope hev hb id

theorem accounts_attempt {body : List Stmt} (hb : ∀ s ∈ body, s.Located (A.places S))
    (name : Option String) {handler : Option (List Stmt)}
    (hh : ∀ s ∈ handler.getD [], s.Located (A.places S)) :
    A.Accounts c S A.Fits (attempt ev body name handler) := by
  cases handler with
  | none => exact accounts_block hev hb
  | some handler =>
    exact .handled (accounts_block hev hb) fun hS d => accounts_runHandler hev name (hS.stmts hh) d

omit hev in
theorem raisesAt_defineAll (id : ScopeId) {loc : Location} (hloc : A.places S loc)
    (entries : List (String × Value)) : RaisesAt (A.places S) (defineAll id loc entries) := by
  induction entries with
  | nil => exact .of_pure ()
  | cons e rest ih => exact .andThen (.defineIn _ _ _ _ hloc) fun _ => ih

omit hev in
theorem raisesAt_caseNames {Q : Location → Prop} (v : Value) (pattern : Option Pattern) :
    RaisesAt Q (caseNames v pattern) := by
  cases pattern with
  | none => exact .of_pure _
  | some p => exact .of_total fun loc => Confined.of_lookHeap fun h => p.match? h v

theorem accounts_runCase {guard : Option Expr} (hg : ∀ e ∈ guard.toList, e.Located (A.places S))
    {body : List Stmt} (hb : ∀ s ∈ body, s.Located (A.places S)) (id : ScopeId) :
    A.Accounts c S (fun S' o => ∀ flow, o = some flow → A.Fits S' flow)
      (runCase ev id guard body) := by
  refine .inScope ((accounts_holds hev hg).andThen fun hS goOn _ => .ite ?_ ?_)
  · exact (accounts_runStatements hev (hS.stmts hb)).map fun _ flow hf _ e => Option.some.inj e ▸ hf
  · exact .of_pure fun _ e => nomatch e

theorem accounts_firstCase {v : Value} (hv : A.Holds S v) {cases : List Case}
    (hc : ∀ k ∈ cases, k.Located (A.places S)) :
    A.Accounts c S (fun S' o => ∀ flow, o = some flow → A.Fits S' flow) (firstCase ev v cases) := by
  induction cases generalizing S with
  | nil => exact .of_pure fun _ e => nomatch e
  | cons case rest ih =>
    obtain ⟨pattern, guard, body, loc⟩ := case
    obtain ⟨hcase, hrest⟩ := List.forall_mem_cons.mp hc
    have hguard : ∀ e ∈ guard.toList, e.Located (A.places S) := fun e he =>
      hcase.guard e (Option.mem_toList.mp he)
    refine .tame_andThen (Regime.tame_caseNames hv pattern) (raisesAt_caseNames v pattern)
      fun names hn => ?_
    cases names with
    -- The pattern does not match.
    | none => exact ih hv hrest
    | some names =>
      refine .tame_andThen (tame_newChild _) (.newChild _) fun id _ => ?_
      refine .tame_andThen (Regime.tame_defineAll id loc (among_some.mp hn).toList)
        (raisesAt_defineAll id hcase.here _) fun _ _ => ?_
      refine (accounts_runCase hev hguard hcase.body id).andThen fun hS flow hf => ?_
      cases flow with
      -- The pattern matches and the condition fails.
      | none => exact ih (hv.grow hS) fun k hk => (hrest k hk).mono fun _ => hS.places
      | some flow => exact .of_pure hf

theorem accounts_choose {e : Expr} (he : e.Located (A.places S)) {cases : List Case}
    (hc : ∀ k ∈ cases, k.Located (A.places S)) :
    A.Accounts c S A.Fits (choose ev e cases) := by
  refine (hev.expr he).andThen fun hS v hv => ?_
  have hcases : ∀ k ∈ cases, k.Located (A.places _) := fun k hk =>
    (hc k hk).mono fun _ => hS.places
  refine (accounts_firstCase hev hv hcases).andThen fun hS' flow hf => ?_
  -- Where no case applies the value is shown in the error.
  split
  · exact .of_pure (hf _ rfl)
  · exact .tame_andThen (tame_print v) (.of_total fun _ => confined_print v) fun _ _ =>
      .of_fail ((hS.trans hS').expr he).here

/-! ### Statements -/

omit hev in
/-- Names bound one by one, each at a place. -/
theorem raisesAt_takeApart {Q : Location → Prop} (p : Destructure) (v : Value) {loc : Location}
    (hloc : Q loc) {bind : String → Value → Eval Unit} (hb : ∀ n v, RaisesAt Q (bind n v)) :
    RaisesAt Q (takeApart p v loc bind) :=
  takeApart_induction (J := fun _ => RaisesAt Q) (.of_pure ())
    (fun n v _ _ hx => .andThen (hb n v) fun _ => hx)
    (fun _ _ _ hk => .andThen (.of_total fun _ => .of_lookHeap _) hk)
    (fun _ _ => .of_confined (.of_fail _ _) hloc) p v

omit hev in
theorem raisesAt_declare {Q : Location → Prop} (kind : DeclKind) (name : String) (v : Value)
    {loc : Location} (hloc : Q loc) : RaisesAt Q (declare kind name v loc) := by
  cases kind with
  | «global» => exact .defineIn _ _ _ _ hloc
  | «let» | «const» => exact .define _ _ _ hloc
  | «set» => exact .setVariable _ _ hloc

omit hev in
theorem raisesAt_storeAt {Q : Location → Prop} (target key v : Value) {targetLoc keyLoc : Location}
    (htarget : Q targetLoc) (hkey : Q keyLoc) :
    RaisesAt Q (storeAt target key v targetLoc keyLoc) := by
  unfold storeAt
  split
  · split
    · exact .of_confined (.of_fail _ _) hkey
    · refine .ite (.of_confined (.of_fail _ _) hkey) ?_
      exact .of_confined (confined_storeElement ..) hkey
  · exact .of_total fun _ => confined_storeMember ..
  · exact .of_confined (.of_fail _ _) htarget

omit hev in
/-- What a tame computation does before a statement ends with a value. -/
theorem accounts_ending {α : Type} [Carries α] {x : Eval α}
    (ht : Tame (FunctionDef.Located (A.places S)) x) (hx : RaisesAt (A.places S) x) {v : Value}
    (hv : A.Holds S v) : A.Accounts c S A.Fits (do let _ ← x; return .normal v) :=
  .tame_andThen ht hx fun _ _ => .of_pure hv

omit hev in
/-- The end of a guard's body is in the guard. -/
theorem place_guardEnd {loc : Location} (hloc : A.places S loc) {body : List Stmt}
    (hb : ∀ s ∈ body, s.Located (A.places S)) : A.places S (guardEnd loc body) := by
  unfold guardEnd
  split
  · rename_i s e
    exact (hb s (List.mem_of_getLast? e)).here
  · exact hloc

/-- A loop under a label is run with the label, any other statement without. -/
theorem accounts_labeled {loc : Location} {label : String} {s : Stmt}
    (hs : (Stmt.labeled loc label s).Located (A.places S)) :
    A.Accounts c S A.Fits (labeled ev (some label) s) := by
  have hexprs (e : Expr) (h : e ∈ (Stmt.labeled loc label s).exprs) := hs.expr h
  have hinside (s' : Stmt) (h : s' ∈ (Stmt.labeled loc label s).inside) := hs.inner h
  cases s with
  | whileLoop loc test body =>
    exact accounts_rounds hev (fun e he => hexprs e (by simpa [Stmt.exprs] using he)) hinside _ _
      trivial
  | loop loc body => exact accounts_rounds hev (by simp) hinside _ _ trivial
  | forEach loc name e body =>
    exact accounts_forEach hev name (hexprs e (by simp [Stmt.exprs])) hinside _
  -- Anything else runs as it would without the label.
  | _ => exact hev.stmt (hinside _ (by simp [Stmt.inside, Stmt.parts]))

theorem accounts_cond {loc : Location} {test : Expr} {yes : List Stmt} {no : Else}
    (hs : (Stmt.cond loc test yes no).Located (A.places S)) :
    A.Accounts c S A.Fits (statement ev (.cond loc test yes no)) := by
  have hinside (s' : Stmt) (h : s' ∈ yes ++ no.parts) : s'.Located (A.places S) := hs.inner h
  have hyes : ∀ s ∈ yes, s.Located (A.places S) := fun s h => hinside s (by simp [h])
  have hno : ∀ s ∈ no.parts, s.Located (A.places S) := fun s h => hinside s (by simp [h])
  refine (hev.expr (hs.expr (by simp [Stmt.exprs]))).andThen fun hS v _ => .ite ?_ ?_
  · exact accounts_block hev (hS.stmts hyes)
  · cases no with
    | nothing => exact .of_pure trivial
    | block body => exact accounts_block hev (hS.stmts hno)
    | elseIf next => exact hev.stmt (hS.stmts hno next (by simp [Else.parts]))

omit hev in
/-- A case of a match, in terms of the match. -/
theorem located_case {loc : Location} {e : Expr} {cases : List Case}
    (hs : (Stmt.choose loc e cases).Located (A.places S)) {k : Case} (hk : k ∈ cases) :
    k.Located (A.places S) := by
  refine ⟨hs.place ?_, fun g hg => hs.expr ?_, fun s h => hs.inner ?_⟩
  · exact List.mem_cons_of_mem _ (List.mem_map_of_mem hk)
  · exact List.mem_cons_of_mem _ (List.mem_filterMap.mpr ⟨k, hk, hg⟩)
  · exact List.mem_flatMap.mpr ⟨k, hk, h⟩

/-- **Statements.** An import is treated apart, since what it runs is not part of the program. -/
theorem accounts_statement {s : Stmt} (hs : s.Located (A.places S))
    (hload : ∀ loc path name, s ≠ .load loc path name) :
    A.Accounts c S A.Fits (statement ev s) := by
  have hlocated (e : Expr) (h : e ∈ s.exprs) := hs.expr h
  have hexpr (e : Expr) (h : e ∈ s.exprs) : A.Accounts c S A.Holds (ev.expr e) :=
    hev.expr (hs.expr h)
  have hinside (s' : Stmt) (h : s' ∈ s.inside) := hs.inner h
  have hloc : A.places S s.location := hs.here
  cases s with
  | declare loc kind target e exported =>
    refine (hexpr e (by simp [Stmt.exprs])).andThen fun hS v hv => ?_
    have hloc := hS.places hloc
    cases target with
    | name n =>
      exact accounts_ending (Regime.tame_declare kind n hv loc) (raisesAt_declare kind n v hloc) hv
    | pattern p =>
      exact accounts_ending
        (Regime.tame_takeApart p v loc fun n w hw => Regime.tame_declare kind n hw loc)
        (raisesAt_takeApart p v hloc fun n w => raisesAt_declare kind n w hloc) hv
  | destructure loc p e =>
    refine (hexpr e (by simp [Stmt.exprs])).andThen fun hS v hv => ?_
    exact accounts_ending (Regime.tame_takeApart p v _ fun n w hw => tame_setVariable hw)
      (raisesAt_takeApart p v (hS.expr (hlocated e (by simp [Stmt.exprs]))).here fun n w =>
        .setVariable n w (hS.places hloc)) hv
  | setProperty loc e name value =>
    have he := hlocated e (by simp [Stmt.exprs])
    refine (hexpr e (by simp [Stmt.exprs])).andThen fun hS target _ => ?_
    refine (hev.expr (hS.expr (hlocated value (by simp [Stmt.exprs])))).andThen fun hS' v hv => ?_
    split
    · exact accounts_ending (tame_modifyObject _ fun es h => h.insert name hv)
        (.of_total fun _ => confined_modifyObject _ _) hv
    · exact .of_fail ((hS.trans hS').expr he).here
  | setIndex loc e index value =>
    have he := hlocated e (by simp [Stmt.exprs])
    have hindex := hlocated index (by simp [Stmt.exprs])
    refine (hev.expr he).andThen fun hS₁ target _ => ?_
    refine (hev.expr (hS₁.expr hindex)).andThen fun hS₂ key _ => ?_
    have hS := hS₁.trans hS₂
    refine (hev.expr (hS.expr (hlocated value (by simp [Stmt.exprs])))).andThen fun hS₃ v hv => ?_
    have hS := hS.trans hS₃
    exact accounts_ending (Regime.tame_storeAt target key hv _ _)
      (raisesAt_storeAt target key v (hS.expr he).here (hS.expr hindex).here) hv
  | function loc fn exported =>
    refine .tame_andThen (tame_newClosure (hs.function (by simp [Stmt.functions])))
      (.of_total fun _ => confined_newClosure fn) fun v hv => ?_
    exact accounts_ending (tame_define hv) (.define _ _ _ hloc) among_null
  | cond loc test yes no => exact accounts_cond hev hs
  | guard loc test no =>
    refine (hexpr test (by simp [Stmt.exprs])).andThen fun hS v _ => .ite (.of_pure trivial) ?_
    refine (accounts_block hev (hS.stmts hinside)).andThen fun hS' flow hf => ?_
    -- A guard whose body comes to its end is an error.
    split
    · exact .of_fail ((hS.trans hS').places (place_guardEnd hloc hinside))
    · exact .of_pure hf
  | whileLoop loc test body =>
    refine accounts_rounds hev (fun e he => hs.expr ?_) hinside _ _ trivial
    simpa [Stmt.exprs] using he
  | forEach loc name e body =>
    exact accounts_forEach hev name (hs.expr (by simp [Stmt.exprs])) hinside _
  | loop loc body => exact accounts_rounds hev (by simp) hinside _ _ trivial
  | labeled loc label body => exact accounts_labeled hev hs
  | breakTo loc label => exact .of_pure hloc
  | continueTo loc label => exact .of_pure hloc
  | attempt loc body name handler =>
    exact accounts_attempt hev (fun s h => hinside s (by simp [Stmt.inside, Stmt.parts, h])) name
      fun s h => hinside s (by simp [Stmt.inside, Stmt.parts, h])
  | call loc callee args dest =>
    refine (accounts_callExpr hev false (fun e he => hs.expr he) hloc).andThen fun hS v hv => ?_
    cases dest with
    | none => exact accounts_ending (.of_pure (a := ()) trivial) (.of_pure ()) hv
    | some n => exact accounts_ending (tame_define hv) (.define _ _ _ (hS.places hloc)) hv
  | giveBack loc e =>
    cases e with
    | none => exact .of_pure trivial
    | some e => exact (hexpr e (by simp [Stmt.exprs])).andThen fun _ v hv => .of_pure hv
  | print loc e =>
    refine (hexpr e (by simp [Stmt.exprs])).andThen fun _ v hv => ?_
    refine .tame_andThen (tame_print v) (.of_total fun _ => confined_print v) fun text _ => ?_
    exact accounts_ending (.of_overPrinter _) (.of_total fun _ => .of_overPrinter _) hv
  | raise loc e =>
    refine (hexpr e (by simp [Stmt.exprs])).andThen fun hS v _ => ?_
    exact .tame_andThen (tame_print v) (.of_total fun _ => confined_print v) fun text _ =>
      .of_fail (hS.places hloc)
  | choose loc e cases =>
    exact accounts_choose hev (hs.expr (List.mem_cons_self ..)) fun k hk => located_case hs hk
  | load loc path name => exact absurd rfl (hload loc path name)
  | expr loc e => exact (hexpr e (by simp [Stmt.exprs])).andThen fun _ v hv => .of_pure hv

end Attribution

end ScriptLang
