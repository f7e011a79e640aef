import ScriptLang.Eval.Machine
import ScriptLang.Proofs.IndexedMaps
import ScriptLang.Proofs.ScopeWrites

/-!
# Scopes only grow

Whatever is done to a forest of scopes, and in whatever order: names that a scope has stay where
they are, bindings stay of the kind that they were made as, and constants keep their values.

* A `ScopeOp` is one of the four operations on a scope. `Scopes.after` is the forest after it, and
  `Scopes.Leads` relates a forest with those that it becomes by any sequence of operations.
* `Scope.Grows` says what may become of one scope, and `Scopes.Grows` says it of all scopes.
* `ScopeWrite.Fair` says what the three operations that write have in common, although each of them
  looks for a binding in other scopes: whatever binding the write comes upon, it respects.
* `bindings_append_only` is the main statement.
-/

namespace ScriptLang

/-! ### Operations -/

/-- An operation on a scope of a forest. -/
inductive ScopeOp where
  | child (parent : ScopeId) (role : ScopeRole)
  | define (id : ScopeId) (name : String) (v : Value) (kind : DeclKind)
  | assign (id : ScopeId) (name : String) (v : Value)
  | setVariable (id : ScopeId) (name : String) (v : Value)

namespace ScopeOp

/-- The scope that an operation works on. -/
def scope : ScopeOp → ScopeId
  | child id _ | define id .. | assign id .. | setVariable id .. => id

/-- What an operation makes of a forest, or why it is refused. -/
def run (t : Scopes) : ScopeOp → Except ScopeError Scopes
  | child id role => .ok (t.child id role).2
  | define id name v kind => t.define id name v kind
  | assign id name v => t.assign id name v
  | setVariable id name v => t.setVariable id name v

end ScopeOp

namespace Scopes

/-- The forest after an operation. An operation that is refused leaves it. -/
def after (t : Scopes) (op : ScopeOp) : Scopes :=
  match op.run t with
  | .ok t' => t'
  | .error _ => t

/-- **Leads.** Operations on scopes that exist make the second forest of the first one. -/
inductive Leads : Scopes → Scopes → Prop where
  | refl (t : Scopes) : Leads t t
  | step {t t' : Scopes} (op : ScopeOp) (h : Leads t t') (hop : op.scope < t'.table.size) :
    Leads t (t'.after op)

end Scopes

/-! ### One scope -/

/-- What may become of a binding: its kind stays, and the value of a constant does. -/
structure Binding.Keeps (b b' : Binding) : Prop where
  kind : b'.kind = b.kind
  value : b.kind = .const → b'.value = b.value

namespace Binding.Keeps

variable {b b₁ b₂ b₃ : Binding}

@[refl] theorem refl (b : Binding) : b.Keeps b := ⟨rfl, fun _ => rfl⟩

theorem trans (h : b₁.Keeps b₂) (h' : b₂.Keeps b₃) : b₁.Keeps b₃ :=
  ⟨h'.kind.trans h.kind, fun hc => (h'.value (h.kind.trans hc)).trans (h.value hc)⟩

/-- Another value for a binding that is not constant. -/
theorem of_ne_const (h : b.kind ≠ .const) (v : Value) : b.Keeps { b with value := v } :=
  ⟨rfl, fun hc => absurd hc h⟩

end Binding.Keeps

/-- **Grows.** What may become of a scope. -/
structure Scope.Grows (s s' : Scope) : Prop where
  parent : s'.parent = s.parent
  role : s'.role = s.role
  /-- The names are there, in order, and others come after them. -/
  names : s.vars.keys <+: s'.vars.keys
  bindings : ∀ name b, s.vars.get? name = some b →
    ∃ b', s'.vars.get? name = some b' ∧ b.Keeps b'

namespace Scope.Grows

variable {s s₁ s₂ s₃ : Scope} {name : String} {b : Binding}

@[refl] theorem refl (s : Scope) : s.Grows s :=
  ⟨rfl, rfl, List.prefix_rfl, fun _ b hb => ⟨b, hb, .refl b⟩⟩

theorem trans (h : s₁.Grows s₂) (h' : s₂.Grows s₃) : s₁.Grows s₃ := by
  refine ⟨h'.parent.trans h.parent, h'.role.trans h.role, h.names.trans h'.names, ?_⟩
  intro name b₁ hb₁
  obtain ⟨b₂, hb₂, hk⟩ := h.bindings name b₁ hb₁
  obtain ⟨b₃, hb₃, hk'⟩ := h'.bindings name b₂ hb₂
  exact ⟨b₃, hb₃, hk.trans hk'⟩

/-- A binding that respects the one which it replaces, if there is one. -/
theorem of_insert (hb : ∀ b₀, s.vars.get? name = some b₀ → b₀.Keeps b) :
    s.Grows { s with vars := s.vars.insert name b } := by
  refine ⟨rfl, rfl, s.vars.keys_prefix_insert name b, fun n b₀ hb₀ => ?_⟩
  dsimp only
  rw [OrderedMap.get?_insert]
  by_cases hn : n = name
  · subst hn
    exact ⟨b, if_pos rfl, hb b₀ hb₀⟩
  · exact ⟨b₀, by rw [if_neg hn, hb₀], .refl b₀⟩

/-- Another value for a binding that is not constant. -/
theorem of_update (v : Value)
    (hb : ∀ b₀, s.vars.get? name = some b₀ → b₀.kind ≠ .const) :
    s.Grows { s with vars := s.vars.modify name fun b => { b with value := v } } := by
  refine ⟨rfl, rfl, ?_, fun n b₀ hb₀ => ?_⟩
  · exact (s.vars.keys_modify name _).symm ▸ List.prefix_rfl
  · dsimp only
    rw [OrderedMap.get?_modify]
    by_cases hn : n = name
    · subst hn
      refine ⟨{ b₀ with value := v }, ?_, .of_ne_const (hb b₀ hb₀) v⟩
      rw [if_pos rfl, hb₀, Option.map_some]
    · exact ⟨b₀, by rw [if_neg hn, hb₀], .refl b₀⟩

end Scope.Grows

/-! ### Writes -/

/-- **Fair.** The write respects the binding that it comes upon, if there is one: a new binding is
of the same kind and replaces no constant, and another value goes to no constant. -/
def ScopeWrite.Fair (t : Scopes) : ScopeWrite → Prop
  | .bind id name b => ∀ b₀, (t.get id).vars.get? name = some b₀ → b₀.Keeps b
  | .update id name _ => ∀ b₀, (t.get id).vars.get? name = some b₀ → b₀.kind ≠ .const

namespace Scopes

variable {t t' t₁ t₂ t₃ : Scopes} {id s : ScopeId} {name : String} {v : Value} {kind : DeclKind}
  {w : ScopeWrite} {b : Binding}

/-- A declaration finds no binding of the name, or one by `set` that it replaces by one by `set`. -/
theorem planDefine_fair (h : t.planDefine id name v kind = .ok w) : w.Fair t := by
  unfold planDefine at h
  cases hb : (t.get id).vars.get? name with
  | none =>
    rw [hb] at h
    cases h
    intro b₀ hb₀
    rw [hb] at hb₀
    cases hb₀
  | some b =>
    rw [hb] at h
    dsimp only at h
    -- The name is taken; only `set` may declare it once more, after `set`.
    split at h
    · rename_i hset
      cases h
      simp only [Bool.and_eq_true, beq_iff_eq] at hset
      intro b₀ hb₀
      obtain rfl : b = b₀ := Option.some.inj (hb.symm.trans hb₀)
      refine ⟨hset.1.trans hset.2.symm, fun hc => ?_⟩
      rw [hset.2] at hc
      cases hc
    · cases h

/-- An assignment changes the binding that was found, which is no constant. -/
theorem planOverwrite_fair (hb : (t.get s).vars.get? name = some b)
    (h : planOverwrite name v (s, b) = .ok w) : w.Fair t := by
  unfold planOverwrite at h
  split at h
  · cases h
  · rename_i hk
    cases h
    intro b₀ hb₀
    obtain rfl : b = b₀ := Option.some.inj (hb.symm.trans hb₀)
    simpa using hk

theorem planAssign_fair (h : t.planAssign id name v = .ok w) : w.Fair t := by
  unfold planAssign at h
  split at h
  · rename_i found hf
    exact planOverwrite_fair (find?_get hf) h
  · cases h

theorem planSet_fair (h : t.planSet id name v = .ok w) : w.Fair t := by
  unfold planSet at h
  split at h
  · rename_i found hf
    exact planOverwrite_fair (findInFile?_get hf) h
  · exact planDefine_fair h

/-- Every scope has grown. -/
structure Grows (t t' : Scopes) : Prop where
  size : t.table.size ≤ t'.table.size
  scopes : ∀ id < t.table.size, (t.get id).Grows (t'.get id)

@[refl] theorem Grows.refl (t : Scopes) : t.Grows t := ⟨Nat.le_refl _, fun _ _ => .refl _⟩

theorem Grows.trans (h : t₁.Grows t₂) (h' : t₂.Grows t₃) : t₁.Grows t₃ :=
  ⟨Nat.le_trans h.size h'.size, fun id hid =>
    (h.scopes id hid).trans (h'.scopes id (Nat.lt_of_lt_of_le hid h.size))⟩

/-- A change of one scope, seen from each. -/
theorem grows_modify {f : Scope → Scope} (hf : (t.get id).Grows (f (t.get id))) :
    t.Grows ⟨t.table.modify id f⟩ := by
  refine ⟨by simp, fun j _ => ?_⟩
  rw [get_modify]
  split
  · rename_i h
    rw [← h.1]
    exact hf
  · exact .refl _

/-- **A fair write.** -/
theorem grows_perform (hw : w.Fair t) : t.Grows (t.perform w) := by
  cases w with
  | bind id name b => exact grows_modify (.of_insert hw)
  | update id name v => exact grows_modify (.of_update v hw)

/-- A new scope has no names, and the others stay. -/
theorem grows_child (t : Scopes) (parent : ScopeId) (role : ScopeRole) :
    t.Grows (t.child parent role).2 := by
  refine ⟨by simp [child], fun id hid => ?_⟩
  rw [get_child hid]

/-- What a plan comes to. -/
theorem map_perform {plan : Except ScopeError ScopeWrite} (h : plan.map t.perform = .ok t') :
    ∃ w, plan = .ok w ∧ t.perform w = t' := by
  cases plan with
  | error e => cases h
  | ok w =>
    cases h
    exact ⟨w, rfl, rfl⟩

/-- **Step.** An operation lets every scope grow. -/
theorem grows_run {op : ScopeOp} (h : op.run t = .ok t') : t.Grows t' := by
  cases op with
  | child id role =>
    cases h
    exact grows_child t id role
  | define id name v kind =>
    obtain ⟨w, hw, rfl⟩ := map_perform h
    exact grows_perform (planDefine_fair hw)
  | assign id name v =>
    obtain ⟨w, hw, rfl⟩ := map_perform h
    exact grows_perform (planAssign_fair hw)
  | setVariable id name v =>
    obtain ⟨w, hw, rfl⟩ := map_perform h
    exact grows_perform (planSet_fair hw)

theorem after_of_error {op : ScopeOp} {e : ScopeError} (h : op.run t = .error e) :
    t.after op = t := by
  unfold after
  rw [h]

/-- A name that is declared for the first time in a scope. -/
theorem get?_after_define (hid : id < t.table.size)
    (hn : (t.get id).vars.get? name = none) :
    ((t.after (.define id name v kind)).get id).vars.get? name = some ⟨v, kind⟩ := by
  have hplan : t.planDefine id name v kind = .ok (.bind id name ⟨v, kind⟩) := by
    unfold planDefine
    rw [hn]
  have hrun : ScopeOp.run t (.define id name v kind) = .ok (t.bind id name ⟨v, kind⟩) := by
    change (t.planDefine id name v kind).map t.perform = _
    rw [hplan]
    rfl
  unfold after
  rw [hrun]
  dsimp only [bind]
  rw [get_modify, if_pos ⟨rfl, hid⟩, OrderedMap.get?_insert, if_pos rfl]

theorem grows_after (t : Scopes) (op : ScopeOp) : t.Grows (t.after op) := by
  cases h : op.run t with
  | error e => rw [after_of_error h]
  | ok t' =>
    unfold after
    rw [h]
    exact grows_run h

/-- **Run.** So does any sequence of operations, by induction on it. -/
theorem Leads.grows (h : t.Leads t') : t.Grows t' := by
  induction h with
  | refl => exact .refl _
  | step op _ _ ih => exact ih.trans (grows_after _ op)

end Scopes

/-! ### Operations of a machine -/

namespace Eval

variable {m m' : Machine} {d : Diagnostic}

/-- A plan that is refused leaves the machine. -/
theorem alterScopes_error {plan : Scopes → Except ScopeError ScopeWrite}
    {fault : ScopeError → RuntimeFault} {loc : Location}
    (h : alterScopes plan fault loc m = .error d m') : m' = m := by
  unfold alterScopes at h
  split at h
  · cases h
  · cases h
    rfl

/-- The scopes after a planned change of the machine. -/
theorem scopes_alterScopes (plan : Scopes → Except ScopeError ScopeWrite)
    (fault : ScopeError → RuntimeFault) (loc : Location) (m : Machine) :
    (alterScopes plan fault loc m).machine.scopes =
      match (plan m.scopes).map m.scopes.perform with
      | .ok t => t
      | .error _ => m.scopes := by
  unfold alterScopes
  cases plan m.scopes <;> rfl

end Eval

/-! ### The main statement -/

/-- **Bindings are append-only, and constants stay.** In a forest, such as those that operations
make of the global scope, no scope has a name twice. Whatever operations follow, every scope keeps
its parent, its role and its names in their order, every binding keeps its kind, and a constant its
value. An operation that is refused leaves the forest as it is; so it is when a machine carries it
out. -/
theorem bindings_append_only (t : Scopes) :
    (∀ id, (t.get id).vars.keys.Nodup) ∧
    (∀ t', t.Leads t' → t.Grows t') ∧
    (∀ op e, ScopeOp.run t op = .error e → t.after op = t) ∧
    (∀ id name v kind loc m, m.scopes = t →
      (Eval.defineIn id name v kind loc m).machine.scopes = t.after (.define id name v kind) ∧
      (Eval.setVariable name v loc m).machine.scopes =
        t.after (.setVariable m.context.scope name v) ∧
      ∀ d m', Eval.defineIn id name v kind loc m = .error d m' ∨
        Eval.setVariable name v loc m = .error d m' → m' = m) := by
  refine ⟨fun id => (t.get id).vars.nodup_keys, fun t' ht => ht.grows,
    fun op e he => Scopes.after_of_error he, ?_⟩
  rintro id name v kind loc m rfl
  -- The word `set` works on the current scope, which is looked up first.
  have hset : Eval.setVariable name v loc m =
      Eval.alterScopes (fun t => t.planSet m.context.scope name v) (.ofScope name) loc m := rfl
  rw [hset]
  refine ⟨Eval.scopes_alterScopes .., Eval.scopes_alterScopes .., fun d m' he => ?_⟩
  rcases he with he | he
  · exact Eval.alterScopes_error he
  · exact Eval.alterScopes_error he

/-- A constant of the global scope, and a function that sets its name. -/
theorem bindings_append_only_const :
    let t := Scopes.initial.after (.define Scopes.root "x" (.bool true) .const)
    Scopes.initial.Leads t ∧
    (((t.after (.child Scopes.root .function)).after (.setVariable 1 "x" (.bool false))).get
      Scopes.root).vars.get? "x" = some ⟨.bool true, .const⟩ := by
  intro t
  have hleads : Scopes.initial.Leads t := .step _ (.refl _) (by decide)
  have hroot : Scopes.root < t.table.size := hleads.grows.size
  have hx : (t.get Scopes.root).vars.get? "x" = some ⟨.bool true, .const⟩ :=
    Scopes.get?_after_define (by decide) (OrderedMap.get?_empty "x")
  have hchild : 1 < (t.after (.child Scopes.root .function)).table.size := by
    change 1 < (t.table.push _).size
    rw [Array.size_push]
    exact Nat.succ_lt_succ hroot
  -- What becomes of the constant is not computed, but read off the theorem.
  have hgrows := (bindings_append_only t).2.1 _ (.step (.setVariable 1 "x" (.bool false))
    (.step (.child Scopes.root .function) (.refl t) hroot) hchild)
  obtain ⟨b, hb, hkeeps⟩ := (hgrows.scopes Scopes.root hroot).bindings "x" _ hx
  rw [hb]
  obtain ⟨v, k⟩ := b
  have hkind : k = .const := hkeeps.kind
  have hvalue : v = .bool true := hkeeps.value rfl
  rw [hkind, hvalue]
  exact ⟨hleads, rfl⟩

end ScriptLang
