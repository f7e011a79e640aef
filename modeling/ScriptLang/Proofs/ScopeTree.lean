import ScriptLang.Proofs.Discipline
import ScriptLang.Proofs.SetBoundary

/-!
# Scopes inside scopes

A look-up and the word `set` go outward from the current scope. So what is done in one scope can
reach the scopes around it, and none that stands beside it or beside one of those.

* `Scopes.Descends` — going outward from one scope leads to another one.
* `Scopes.Extends` — a table has got more scopes, and the old ones have the parents that they had.
* `Scopes.Descends.eq_of_siblings` — no scope descends from two children of one scope.
* `Scopes.Spares` — a table has got other bindings, and none of them in the scopes that descend from
  a given one.
* `Eval.Binds` are the computations by which a program binds names and changes bindings.
  `Eval.Binds.sparing` says that they spare every tree that they do not run in.

A parent stands before its children. Rather than show it of the tables of all runs, we have
`Scopes.Descends` ask for it at every step, as the searches for a name do.
-/

namespace ScriptLang

/-- The scope that is changed. -/
def ScopeWrite.target : ScopeWrite → ScopeId
  | .bind id _ _ | .update id _ _ => id

namespace Scopes

variable {t t' t₁ t₂ t₃ : Scopes} {id p a b j s : ScopeId} {name : String} {v : Value}
  {kind : DeclKind} {w : ScopeWrite} {found : Binding}

/-! ### Going outward -/

/-- **Descends.** Going outward from the first scope leads to the second one. -/
inductive Descends (t : Scopes) : ScopeId → ScopeId → Prop
  | refl (id : ScopeId) : Descends t id id
  | outward {id p a : ScopeId} (hp : (t.get id).parent = some p) (hlt : p < id)
    (h : Descends t p a) : Descends t id a

namespace Descends

theorem le (h : t.Descends id a) : a ≤ id := by
  induction h with
  | refl => exact Nat.le_refl _
  | outward _ hlt _ ih => exact Nat.le_trans ih (Nat.le_of_lt hlt)

theorem trans (h : t.Descends id p) (h' : t.Descends p a) : t.Descends id a := by
  induction h with
  | refl => exact h'
  | outward hp hlt _ ih => exact .outward hp hlt (ih h')

/-- There is one way outward, so of two scopes on it one descends from the other. -/
theorem total (h : t.Descends id a) (h' : t.Descends id b) :
    t.Descends a b ∨ t.Descends b a := by
  induction h with
  | refl => exact .inl h'
  | @outward id p a hp hlt h ih =>
    cases h' with
    | refl => exact .inr (.outward hp hlt h)
    | @outward _ q _ hq _ h' =>
      obtain rfl : p = q := Option.some.inj (hp.symm.trans hq)
      exact ih h'

/-- A scope does not descend from another child of its parent. -/
theorem eq_of_parent (ha : (t.get a).parent = some p) (hb : p < b) (h : t.Descends a b) :
    a = b := by
  cases h with
  | refl => rfl
  | @outward _ q _ hq _ h =>
    -- Outward of the first child is the parent, which stands before the second one.
    obtain rfl : p = q := Option.some.inj (ha.symm.trans hq)
    exact absurd h.le (Nat.not_le_of_lt hb)

/-- **Siblings.** No scope descends from two children of one scope. -/
theorem eq_of_siblings (ha : (t.get a).parent = some p) (hb : (t.get b).parent = some p)
    (hpa : p < a) (hpb : p < b) (h : t.Descends id a) (h' : t.Descends id b) : a = b := by
  rcases h.total h' with hab | hba
  · exact eq_of_parent ha hpb hab
  · exact (eq_of_parent hb hpa hba).symm

end Descends

/-- What the search of all scopes around finds is found on the way outward. -/
theorem find?_descends (h : t.find? name id = some (s, found)) : t.Descends id s := by
  fun_induction find? t name id with
  | case1 id scope b hb =>
    cases h
    exact .refl _
  | case2 id scope hb p hp hlt ih => exact .outward hp hlt (ih h)
  | _ => cases h

/-- So is what the search of the word `set` finds. -/
theorem findInFile?_descends (h : t.findInFile? name id = some (s, found)) : t.Descends id s := by
  fun_induction findInFile? t name id with
  | case1 id scope b hb =>
    cases h
    exact .refl _
  | case3 id scope hb hr p hp hlt ih => exact .outward hp hlt (ih h)
  | _ => cases h

/-! ### More scopes -/

/-- **Extends.** The second table has the scopes of the first one, each with its parent, and perhaps
more. -/
structure Extends (t t' : Scopes) : Prop where
  size : t.table.size ≤ t'.table.size
  parent : ∀ id < t.table.size, (t'.get id).parent = (t.get id).parent

namespace Extends

@[refl] theorem refl (t : Scopes) : t.Extends t := ⟨Nat.le_refl _, fun _ _ => rfl⟩

theorem trans (h : t₁.Extends t₂) (h' : t₂.Extends t₃) : t₁.Extends t₃ :=
  ⟨Nat.le_trans h.size h'.size, fun id hid =>
    (h'.parent id (Nat.lt_of_lt_of_le hid h.size)).trans (h.parent id hid)⟩

theorem of_perform (t : Scopes) (w : ScopeWrite) : t.Extends (t.perform w) := by
  refine ⟨?_, fun id _ => (frame_perform t w id).1⟩
  cases w <;> simp [perform, Scopes.bind, Scopes.update]

theorem of_child (t : Scopes) (parent : ScopeId) (role : ScopeRole) :
    t.Extends (t.child parent role).2 := by
  refine ⟨by simp [child], fun id hid => ?_⟩
  rw [get_child hid]

end Extends

/-! ### Where a change goes -/

theorem get_perform_of_ne (h : id ≠ w.target) : (t.perform w).get id = t.get id := by
  cases w <;> exact get_modify_of_ne h

/-- A declaration that is not refused puts its binding into its scope. -/
theorem eq_bind_of_planDefine (h : t.planDefine id name v kind = .ok w) :
    w = .bind id name ⟨v, kind⟩ := by
  unfold planDefine at h
  split at h
  · split at h <;> cases h
    rfl
  · cases h
    rfl

theorem planDefine_target (h : t.planDefine id name v kind = .ok w) : w.target = id := by
  rw [eq_bind_of_planDefine h]
  rfl

/-- The word `set` changes a scope on the way outward. -/
theorem planSet_target (h : t.planSet id name v = .ok w) : t.Descends id w.target := by
  unfold planSet at h
  split at h
  · rename_i found hf
    unfold planOverwrite at h
    split at h <;> cases h
    exact findInFile?_descends hf
  · rw [planDefine_target h]
    exact .refl _

/-! ### Sparing a tree -/

/-- **Spares.** The parents in the two tables are the same, and the scopes that descend from `j`
also have the same bindings. -/
structure Spares (j : ScopeId) (t t' : Scopes) : Prop where
  parent : ∀ id, (t'.get id).parent = (t.get id).parent
  inside : ∀ id, t.Descends id j → t'.get id = t.get id

namespace Spares

@[refl] theorem refl (t : Scopes) : Spares j t t := ⟨fun _ => rfl, fun _ _ => rfl⟩

theorem descends_iff (h : Spares j t t') : t'.Descends id a ↔ t.Descends id a := by
  constructor
  · intro hd
    induction hd with
    | refl => exact .refl _
    | outward hp hlt _ ih => exact .outward ((h.parent _).symm.trans hp) hlt ih
  · intro hd
    induction hd with
    | refl => exact .refl _
    | outward hp hlt _ ih => exact .outward ((h.parent _).trans hp) hlt ih

theorem trans (h : Spares j t₁ t₂) (h' : Spares j t₂ t₃) : Spares j t₁ t₃ :=
  ⟨fun id => (h'.parent id).trans (h.parent id), fun id hid =>
    (h'.inside id (h.descends_iff.mpr hid)).trans (h.inside id hid)⟩

/-- A change outside of the tree. -/
theorem of_perform (h : ¬ t.Descends w.target j) : Spares j t (t.perform w) := by
  refine ⟨fun id => (frame_perform t w id).1, fun id hid => get_perform_of_ne ?_⟩
  rintro rfl
  exact h hid

/-- What a look-up finds in the tree it finds as before. -/
theorem find?_eq (h : Spares j t t') (hs : t.Descends s j)
    (hf : t.find? name id = some (s, found)) : t'.find? name id = some (s, found) := by
  -- On the way to the scope of the binding all scopes are in the tree.
  have hid : t.Descends id j := (find?_descends hf).trans hs
  fun_induction find? t name id with
  | case1 id scope b hb =>
    cases hf
    rw [find?, h.inside _ hid]
    simp only [scope] at hb
    simp only [hb]
  | case2 id scope hb p hp hlt ih =>
    rw [find?, h.inside _ hid]
    simp only [scope] at hb hp
    simp only [hb, hp, hlt, if_true]
    exact ih hf ((find?_descends hf).trans hs)
  | _ => cases hf

end Spares

end Scopes

/-! ### Binding names -/

namespace Eval

variable {α β : Type} {j : ScopeId}

/-- **Binds.** Declarations of any kind, the word `set`, and taking values apart by either. -/
inductive Binds : Eval Unit → Prop
  | declare (kind : DeclKind) (name : String) (v : Value) (loc : Location) :
    Binds (declare kind name v loc)
  | define (name : String) (v : Value) (kind : DeclKind) (loc : Location) :
    Binds (define name v kind loc)
  | setVariable (name : String) (v : Value) (loc : Location) : Binds (setVariable name v loc)
  | takeApart (p : Destructure) (v : Value) (loc : Location) {bind : String → Value → Eval Unit}
    (h : ∀ name item, Binds (bind name item)) : Binds (takeApart p v loc bind)

/-- **Sparing.** However it ends, the computation is in the scope that it started in, and if that
scope does not descend from `j`, what descends from `j` is as it was. -/
structure Sparing (j : ScopeId) (x : Eval α) : Prop where
  ends : ∀ m : Machine, (x m).machine.context = m.context ∧
    (¬ m.scopes.Descends m.context.scope j → m.scopes.Spares j (x m).machine.scopes)

namespace Sparing

theorem of_local {x : Eval α} (hx : Local x) : Sparing j x := by
  refine ⟨fun m => ⟨(hx.alike m).context, fun _ => ?_⟩⟩
  rw [(hx.alike m).scopes]

theorem andThen {x : Eval α} {f : α → Eval β} (hx : Sparing j x) (hf : ∀ a, Sparing j (f a)) :
    Sparing j (x >>= f) := by
  refine ⟨fun m => ?_⟩
  have h := hx.ends m
  change (Eval.andThen x f m).machine.context = m.context ∧
    (_ → m.scopes.Spares j (Eval.andThen x f m).machine.scopes)
  unfold Eval.andThen
  cases e : x m with
  | ok a m₁ =>
    rw [e] at h
    obtain ⟨hc, hs⟩ : m₁.context = m.context ∧
      (¬ m.scopes.Descends m.context.scope j → m.scopes.Spares j m₁.scopes) := h
    obtain ⟨hc', hs'⟩ := (hf a).ends m₁
    refine ⟨hc'.trans hc, fun hm => (hs hm).trans (hs' fun hd => hm ?_)⟩
    -- The second computation starts in the same scope, which is outside of the tree as before.
    rw [hc] at hd
    exact (hs hm).descends_iff.mp hd
  | error d m₁ => rw [e] at h; exact h
  | halt r m₁ => rw [e] at h; exact h

/-- A planned change that goes to the root or to a scope around the current one. -/
theorem alterScopes (hj : j ≠ Scopes.root) (plan : ScopeId → Scopes → Except ScopeError ScopeWrite)
    {fault : ScopeError → RuntimeFault} {loc : Location}
    (hp : ∀ id t w, plan id t = .ok w → w.target = Scopes.root ∨ t.Descends id w.target) :
    Sparing j (do Eval.alterScopes (plan (← scope)) fault loc) := by
  refine ⟨fun m => ?_⟩
  change (Eval.alterScopes (plan m.context.scope) fault loc m).machine.context = m.context ∧
    (_ → m.scopes.Spares j (Eval.alterScopes (plan m.context.scope) fault loc m).machine.scopes)
  unfold Eval.alterScopes
  cases e : plan m.context.scope m.scopes with
  | error d => exact ⟨rfl, fun _ => .refl _⟩
  | ok w =>
    refine ⟨rfl, fun hm => .of_perform fun hd => ?_⟩
    rcases hp _ _ _ e with hroot | hcurrent
    -- The root descends from nothing else.
    · exact hj (Nat.le_zero.mp (hroot ▸ hd).le)
    · exact hm (hcurrent.trans hd)

theorem define (hj : j ≠ Scopes.root) (name : String) (v : Value) (kind : DeclKind)
    (loc : Location) : Sparing j (Eval.define name v kind loc) :=
  alterScopes hj (fun id t => t.planDefine id name v kind) fun _ _ _ h =>
    .inr (Scopes.planDefine_target h ▸ .refl _)

theorem setVariable (hj : j ≠ Scopes.root) (name : String) (v : Value) (loc : Location) :
    Sparing j (Eval.setVariable name v loc) :=
  alterScopes hj (fun id t => t.planSet id name v) fun _ _ _ h =>
    .inr (Scopes.planSet_target h)

theorem declare (hj : j ≠ Scopes.root) (kind : DeclKind) (name : String) (v : Value)
    (loc : Location) : Sparing j (Eval.declare kind name v loc) := by
  cases kind with
  | «global» =>
    exact alterScopes hj (fun _ t => t.planDefine Scopes.root name v .global)
      fun _ _ _ h => .inl (Scopes.planDefine_target h)
  | «let» | «const» => exact define hj ..
  | «set» => exact setVariable hj ..

theorem takeApart (p : Destructure) (v : Value) (loc : Location)
    {bind : String → Value → Eval Unit} (hb : ∀ n v, Sparing j (bind n v)) :
    Sparing j (Eval.takeApart p v loc bind) :=
  takeApart_induction (J := fun _ => Sparing j) (.of_local (.of_pure _))
    (fun n v _ _ hx => (hb n v).andThen fun _ => hx)
    (fun _ _ _ hk => .andThen (.of_local (.of_lookHeap _)) hk)
    (fun _ _ => .of_local (.of_fail ..)) p v

end Sparing

/-- **Binding names.** Whatever binds names spares every tree but the one of the root. -/
theorem Binds.sparing {x : Eval Unit} (hx : Binds x) (hj : j ≠ Scopes.root) : Sparing j x := by
  induction hx with
  | declare kind name v loc => exact .declare hj kind name v loc
  | define name v kind loc => exact .define hj name v kind loc
  | setVariable name v loc => exact .setVariable hj name v loc
  | takeApart p v loc _ ih => exact .takeApart p v loc ih

end Eval

end ScriptLang
