import ScriptLang.Value.Scope

/-!
# What a planned change of the scopes may do

A declaration puts a binding into one scope, and an assignment gives a binding that is there already
another value. `ScopeWrite.Within` says which of the two a planned change is, seen from a scope that
may get new names:

* a new binding goes to that scope or to the root (`Scopes.planDefine_within`,
  `Scopes.planDefine_root`);
* the word `set` may also find a binding further out, and then changes its value alone, unless it is
  constant (`Scopes.planSet_within`).

The search for a binding answers with one that the scope has (`Scopes.findInFile?_get`), which is
what makes the second case an assignment.
-/

namespace ScriptLang

/-- The change puts a binding into the root or into scope `i`, or it changes the value of a binding
that is not constant. -/
def ScopeWrite.Within (t : Scopes) (i : Option ScopeId) : ScopeWrite → Prop
  | .bind id _ _ => id = Scopes.root ∨ some id = i
  | .update id name _ => ∃ b, (t.get id).vars.get? name = some b ∧ b.kind ≠ .const

namespace Scopes

variable {t : Scopes} {id j s : ScopeId} {name : String} {v : Value} {kind : DeclKind}
  {w : ScopeWrite} {b : Binding} {i : Option ScopeId}

/-! ### The scopes of a changed table -/

/-- A new scope stands behind those that exist. -/
theorem get_child {parent : ScopeId} {role : ScopeRole} (h : id < t.table.size) :
    (t.child parent role).2.get id = t.get id := by
  simp only [child, get]
  rw [Array.getD_eq_getD_getElem?, Array.getD_eq_getD_getElem?, Array.getElem?_push_lt h,
    Array.getElem?_eq_getElem h]

theorem get_modify {f : Scope → Scope} :
    (Scopes.mk (t.table.modify j f)).get id =
      if j = id ∧ id < t.table.size then f (t.get id) else t.get id := by
  simp only [get]
  rw [Array.getD_eq_getD_getElem?, Array.getD_eq_getD_getElem?, Array.getElem?_modify]
  by_cases hj : j = id
  · by_cases hid : id < t.table.size
    · simp [hj, hid]
    · simp [hj, hid]
  · simp [hj]

/-! ### Plans -/

/-- A binding that a search of all scopes around finds is in the scope that it is found in. -/
theorem find?_get (h : t.find? name id = some (s, b)) : (t.get s).vars.get? name = some b := by
  -- Along the search: the scope has the name, or the search goes to the parent.
  fun_induction find? t name id with
  | case1 id scope b' hb =>
    cases h
    exact hb
  | case2 id scope hb p hp hlt ih => exact ih h
  | _ => cases h

/-- A binding that a search up to the scope of the file finds is in the scope that it is found in.
-/
theorem findInFile?_get (h : t.findInFile? name id = some (s, b)) :
    (t.get s).vars.get? name = some b := by
  -- Along the search: the scope has the name, it ends a file, or the search goes to the parent.
  fun_induction findInFile? t name id with
  | case1 id scope b' hb =>
    cases h
    exact hb
  | case3 id scope hb hr p hp hlt ih => exact ih h
  | _ => cases h

theorem planDefine_within (h : t.planDefine id name v kind = .ok w) :
    w.Within t (some id) := by
  -- A name that is there already is refused or bound anew, in the same scope either way.
  unfold planDefine at h
  split at h
  · split at h <;> cases h
    exact .inr rfl
  · cases h
    exact .inr rfl

theorem planDefine_root (h : t.planDefine root name v kind = .ok w) : w.Within t i := by
  unfold planDefine at h
  split at h
  · split at h <;> cases h
    exact .inl rfl
  · cases h
    exact .inl rfl

theorem planOverwrite_within (hb : (t.get s).vars.get? name = some b)
    (h : planOverwrite name v (s, b) = .ok w) : w.Within t i := by
  unfold planOverwrite at h
  split at h <;> cases h
  rename_i hk
  exact ⟨b, hb, by simpa using hk⟩

theorem planSet_within (h : t.planSet id name v = .ok w) : w.Within t (some id) := by
  unfold planSet at h
  split at h
  -- A binding that was found is assigned, otherwise the name is new in the current scope.
  · rename_i found hf
    exact planOverwrite_within (findInFile?_get hf) h
  · exact planDefine_within h

end Scopes

end ScriptLang
