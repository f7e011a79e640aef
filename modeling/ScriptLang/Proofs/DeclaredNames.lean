import ScriptLang.Proofs.LaterScopes

/-!
# Names declared at the top of a file

A declaration at the top of a file binds its names in the scope of the file, or in the global scope
if it says so, and they stay bound. Functions are declared twice: all of them before the first
statement is executed, and each again where it stands.

* `Stmt.home` — the scope that the names of a declaration are for.
* `Machine.Top` — a machine that is at the top of a file, in the scope of the file.
* `Eval.Declares` — from there, a computation binds names. It passes through the ways of putting
  computations together, as scopes grow: what the first of two computations has bound, the second
  one does not take away.
* `Eval.declares_statement` and `Eval.declares_hoist` are the main statements.
-/

namespace ScriptLang

/-! ### Where declarations bind their names -/

/-- The scope in which a declaration with the word binds its names at the top of a file. -/
def DeclKind.home (file : ScopeId) : DeclKind → ScopeId
  | .global => Scopes.root
  | .let | .const | .set => file

namespace Stmt

/-- The scope in which a declaration binds its names at the top of a file. -/
def home (file : ScopeId) : Stmt → ScopeId
  | .declare _ kind _ _ _ => kind.home file
  | _ => file

theorem home_eq (file : ScopeId) (s : Stmt) : s.home file = file ∨ s.home file = Scopes.root := by
  cases s with
  | declare loc kind target e exported =>
    cases kind with
    | «global» => exact .inr rfl
    | «let» | «const» | «set» => exact .inl rfl
  | _ => exact .inl rfl

/-- Whether a statement declares a function. -/
def isFunction : Stmt → Bool
  | .function .. => true
  | _ => false

end Stmt

namespace Scopes

variable {t : Scopes} {id : ScopeId} {name : String} {b : Binding}

/-- What the word `set` finds at the top of a file. -/
theorem findInFile?_file (hr : (t.get id).role.isBoundary = true) (name : String) :
    t.findInFile? name id = (t.own? id name).map (id, ·) := by
  rw [findInFile?]
  unfold own?
  cases (t.get id).vars.get? name with
  | some b => rfl
  | none => exact if_pos hr

theorem own?_bind (hid : id < t.table.size) :
    (t.bind id name b).own? id name = some b := by
  unfold own? Scopes.bind
  rw [get_modify_self hid, OrderedMap.get?_insert, if_pos rfl]

/-- A name that is declared already. -/
theorem exists_own_of_has (h : t.has name id = true) :
    ∃ b, t.own? id name = some b := by
  unfold has OrderedMap.contains at h
  rw [Std.HashMap.contains_eq_isSome_getElem?, OrderedMap.isSome_index] at h
  exact Option.isSome_iff_exists.mp h

end Scopes

/-! ### Declaring names -/

/-- **Top.** The machine is at the top of the file whose scope is `id`. -/
structure Machine.Top (id : ScopeId) (m : Machine) : Prop where
  current : m.context.scope = id
  lt_size : id < m.scopes.table.size
  role : (m.scopes.get id).role = .moduleRoot

theorem Machine.Top.grow {id : ScopeId} {m m' : Machine} (h : m.Top id)
    (hc : m'.context = m.context) (hg : m.scopes.Grows m'.scopes) : m'.Top id :=
  ⟨hc ▸ h.current, Nat.lt_of_lt_of_le h.lt_size hg.size,
    (hg.scopes id h.lt_size).role.trans h.role⟩

namespace Eval

open Discipline

variable {α β : Type} {id s : ScopeId} {names names' : List String} {ev : Evaluator}

/-- **Declares.** At the top of the file with the scope `id`, the computation stays there and lets
scopes grow, and where it succeeds the names are bound in the scope `s`. -/
structure Declares (id s : ScopeId) (names : List String) (x : Eval α) : Prop where
  ends : ∀ {m m' : Machine} {a : α}, m.Top id → x m = .ok a m' →
    m'.Top id ∧ m.scopes.Grows m'.scopes ∧ ∀ name ∈ names, ∃ b, m'.scopes.own? s name = some b

namespace Declares

/-- What lets scopes grow declares no names. -/
theorem of_obeys {x : Eval α} (hx : ∀ c, ∃ i, growing.Obeys c i x) : Declares id s [] x := by
  refine ⟨fun {m m' a} hm h => ?_⟩
  obtain ⟨i, hi⟩ := hx m.context
  have hends := hi.ends m rfl
  rw [h] at hends
  exact ⟨hm.grow hends.1 hends.2, hends.2, by simp⟩

theorem andThen {x : Eval α} {f : α → Eval β} (hx : Declares id s names x)
    (hf : ∀ a, Declares id s names' (f a)) : Declares id s (names ++ names') (x >>= f) := by
  refine ⟨fun {m m' b} hm h => ?_⟩
  obtain ⟨a, m₁, h₁, h₂⟩ := exists_ok_of_bind h
  obtain ⟨hm₁, hg₁, hn₁⟩ := hx.ends hm h₁
  obtain ⟨hm₂, hg₂, hn₂⟩ := (hf a).ends hm₁ h₂
  refine ⟨hm₂, hg₁.trans hg₂, fun name hname => ?_⟩
  rcases List.mem_append.mp hname with hname | hname
  -- What the first one has bound stays bound.
  · obtain ⟨b, hb⟩ := hn₁ name hname
    obtain ⟨b', hb', -⟩ := hg₂.own? hb
    exact ⟨b', hb'⟩
  · exact hn₂ name hname

/-- What comes after the names were bound. -/
theorem andKeep {x : Eval α} {f : α → Eval β} (hx : Declares id s names x)
    (hf : ∀ a, Declares id s [] (f a)) : Declares id s names (x >>= f) := by
  simpa using hx.andThen hf

theorem of_local {x : Eval α} (hx : Local x) : Declares id s [] x :=
  .of_obeys fun _ => ⟨none, .of_local growing_oblivious.toLawful hx⟩

/-- At the top of a file the current scope is that of the file. -/
theorem scope_andThen {f : ScopeId → Eval β} (hf : Declares id s names (f id)) :
    Declares id s names (Eval.scope >>= f) := by
  refine ⟨fun {m m' b} hm h => ?_⟩
  have hf' : f m.context.scope m = .ok b m' := h
  rw [hm.current] at hf'
  exact hf.ends hm hf'

/-- A planned change after which a name is bound. -/
theorem alterScopes {plan : Scopes → Except ScopeError ScopeWrite}
    {fault : ScopeError → RuntimeFault} {loc : Location} {name : String}
    (hf : ∀ t w, plan t = .ok w → w.Fair t)
    (hn : ∀ (m : Machine) w, m.Top id → plan m.scopes = .ok w →
      ∃ b, (m.scopes.perform w).own? s name = some b) :
    Declares id s [name] (Eval.alterScopes plan fault loc) := by
  refine ⟨fun {m m' a} hm h => ?_⟩
  obtain ⟨w, hw, rfl⟩ := plan_of_alterScopes h
  have hgrows := Scopes.grows_perform (hf _ _ hw)
  refine ⟨hm.grow rfl hgrows, hgrows, fun n hname => ?_⟩
  obtain rfl := List.mem_singleton.mp hname
  exact hn m w hm hw

/-- The scope is that of the file or stands before it. -/
theorem defineIn (hs : s ≤ id) (name : String) (v : Value) (kind : DeclKind) (loc : Location) :
    Declares id s [name] (Eval.defineIn s name v kind loc) := by
  refine .alterScopes (fun _ _ => Scopes.planDefine_fair) fun m w hm hw => ?_
  rw [Scopes.eq_bind_of_planDefine hw]
  exact ⟨_, Scopes.own?_bind (Nat.lt_of_le_of_lt hs hm.lt_size)⟩

theorem define (name : String) (v : Value) (kind : DeclKind) (loc : Location) :
    Declares id id [name] (Eval.define name v kind loc) :=
  scope_andThen (defineIn (Nat.le_refl _) name v kind loc)

/-- The word `set` finds a binding of the file itself, or makes one. -/
theorem setVariable (name : String) (v : Value) (loc : Location) :
    Declares id id [name] (Eval.setVariable name v loc) := by
  refine scope_andThen (.alterScopes (fun _ _ => Scopes.planSet_fair) fun m w hm hw => ?_)
  have hboundary : (m.scopes.get id).role.isBoundary = true := by
    rw [hm.role]
    rfl
  unfold Scopes.planSet at hw
  rw [Scopes.findInFile?_file hboundary] at hw
  -- The scope of a file is a boundary, so no other scope is looked at.
  cases hb : m.scopes.own? id name with
  | none =>
    rw [hb] at hw
    rw [Scopes.eq_bind_of_planDefine hw]
    exact ⟨_, Scopes.own?_bind hm.lt_size⟩
  | some b =>
    rw [hb] at hw
    change Scopes.planOverwrite name v (id, b) = .ok w at hw
    unfold Scopes.planOverwrite at hw
    split at hw <;> cases hw
    exact ⟨_, (Scopes.puts_update hb).here⟩

theorem declare (kind : DeclKind) (name : String) (v : Value) (loc : Location) :
    Declares id (kind.home id) [name] (Eval.declare kind name v loc) := by
  cases kind with
  | «global» => exact defineIn (Nat.zero_le _) ..
  | «let» | «const» => exact define ..
  | «set» => exact setVariable ..

/-- The names of a pattern are bound one by one. -/
theorem takeApart (p : Destructure) (v : Value) (loc : Location)
    {bind : String → Value → Eval Unit} (hb : ∀ n v, Declares id s [n] (bind n v)) :
    Declares id s p.names (Eval.takeApart p v loc bind) :=
  takeApart_induction (J := Declares id s) (.of_local (.of_pure _))
    (fun n v _ _ hx => (hb n v).andThen fun _ => hx)
    (fun _ _ _ hk => (of_local (.of_lookHeap _)).andThen hk)
    (fun _ _ => ⟨fun _ h => by cases h⟩) p v

end Declares

/-- **Statements.** At the top of a file, a declaration binds its names. -/
theorem declares_statement (hev : growing.Evaluates ev) (st : Stmt) :
    Declares id (st.home id) st.declaredNames (statement ev st) := by
  have hL := growing_oblivious.toLawful
  have hnone : Declares id (st.home id) [] (statement ev st) :=
    .of_obeys fun _ => ⟨_, obeys_statement hL hev growing_oblivious.imports trivial⟩
  cases st with
  | declare loc kind target e exported =>
    have hvalue : Declares id (kind.home id) [] (ev.expr e) :=
      .of_obeys fun c => ⟨_, hev.expr c e⟩
    refine hvalue.andThen fun v => ?_
    cases target with
    | name n => exact (Declares.declare kind n v loc).andKeep fun _ => .of_local (.of_pure _)
    | pattern p =>
      refine (Declares.takeApart p v loc fun n item => ?_).andKeep fun _ => .of_local (.of_pure _)
      exact .declare kind n item loc
  | function loc fn exported =>
    cases hname : fn.name? with
    | none => simpa [Stmt.declaredNames, hname] using hnone
    | some name =>
      have hdisplay : fn.displayName = name := by simp [FunctionDef.displayName, hname]
      have hclosure : Declares id id [] (newClosure fn) := .of_local (local_newClosure fn)
      have hnames : (Stmt.function loc fn exported).declaredNames = [name] := by
        simp [Stmt.declaredNames, hname]
      rw [hnames]
      refine hclosure.andThen fun v => ?_
      rw [hdisplay]
      exact (Declares.define name v .set loc).andKeep fun _ => .of_local (.of_pure _)
  -- The other statements declare nothing.
  | _ => exact hnone

/-- A name that is declared already, or else by `y`. -/
theorem Declares.unlessDeclared {name : String} {x y : Eval α} (hx : Declares id id names x)
    (hy : Declares id id (name :: names) y) :
    Declares id id (name :: names) (do if ← declared name then x else y) := by
  refine ⟨fun {m m' a} hm h => ?_⟩
  obtain ⟨found, m₁, hfound, h⟩ := exists_ok_of_bind h
  obtain ⟨rfl, rfl⟩ : m.scopes.has name m.context.scope = found ∧ m = m₁ := by
    cases hfound
    exact ⟨rfl, rfl⟩
  rw [hm.current] at h
  split at h
  · rename_i hhas
    obtain ⟨hm', hgrows, hnames⟩ := hx.ends hm h
    obtain ⟨b, hb⟩ := Scopes.exists_own_of_has hhas
    obtain ⟨b', hb', -⟩ := hgrows.own? hb
    exact ⟨hm', hgrows, List.forall_mem_cons.mpr ⟨⟨b', hb'⟩, hnames⟩⟩
  · exact hy.ends hm h

/-- **Hoisting.** The functions of a file are bound before its first statement is executed. -/
theorem declares_hoist (ss : List Stmt) :
    Declares id id ((ss.filter Stmt.isFunction).flatMap Stmt.declaredNames) (hoist ss) := by
  induction ss with
  | nil => exact .of_local (.of_pure _)
  | cons st rest ih =>
    cases st with
    | function loc fn exported =>
      have hnames : ((Stmt.function loc fn exported :: rest).filter Stmt.isFunction).flatMap
          Stmt.declaredNames =
            fn.name?.toList ++ (rest.filter Stmt.isFunction).flatMap Stmt.declaredNames := rfl
      rw [hnames]
      unfold hoist
      cases fn.name? with
      | none => exact ih
      | some name =>
        refine ih.unlessDeclared ?_
        have hclosure : Declares id id [] (newClosure fn) := .of_local (local_newClosure fn)
        exact hclosure.andThen fun v => (Declares.define name v .set loc).andThen fun _ => ih
    | _ => exact ih

end Eval

end ScriptLang
