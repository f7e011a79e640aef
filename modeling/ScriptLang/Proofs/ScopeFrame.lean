import Mathlib.Data.List.Forall2
import ScriptLang.Proofs.Imports

/-!
# Names stay in their scopes

Whatever runs, the scopes that exist already keep their names. Names that a branch, a body, a
handler, a case, a call or an imported file introduces never become names of a scope around it.

* `Scope.Frame` relates a scope with what becomes of it when nothing is bound in it: parent, role,
  the names in order and their kinds are the same, and so are the values of constants. What may
  differ are the values of other bindings, which assignments change.
* `Scopes.Frames` says it of all scopes of a table but the root and perhaps one more.
* `scopes_framed` is the main statement. An expression or a call frames all scopes but the root; a
  statement may also bind names in the scope that it runs in, and does so only if it is of one of
  the kinds that `Stmt.binds` tells.

The proof is the walk over the evaluator for the discipline of frames. New scopes are harmless since
they stand behind all scopes that exist (`Scopes.get_child`); an assignment is harmless because it
changes a binding that was found, in place (`Scope.Frame.of_modify`).
-/

namespace ScriptLang

/-! ### One scope -/

/-- The binding has its name and kind; a constant also has its value. -/
def Binding.Same (e e' : String × Binding) : Prop :=
  e'.1 = e.1 ∧ e'.2.kind = e.2.kind ∧ (e.2.kind = .const → e'.2.value = e.2.value)

/-- **Frame.** The second scope is the first one, up to values of bindings that are not constant. -/
structure Scope.Frame (s s' : Scope) : Prop where
  parent : s'.parent = s.parent
  role : s'.role = s.role
  /-- The bindings correspond one by one, in order. -/
  bindings : List.Forall₂ Binding.Same s.vars.toList s'.vars.toList
  /-- Names are found at the same places. -/
  index : s'.vars.index = s.vars.index

theorem Binding.Same.refl (e : String × Binding) : Binding.Same e e := ⟨rfl, rfl, fun _ => rfl⟩

theorem Binding.Same.trans {e₁ e₂ e₃ : String × Binding} (h : Binding.Same e₁ e₂)
    (h' : Binding.Same e₂ e₃) : Binding.Same e₁ e₃ :=
  ⟨h'.1.trans h.1, h'.2.1.trans h.2.1, fun hc => (h'.2.2 (h.2.1.trans hc)).trans (h.2.2 hc)⟩

/-- A relation that holds along a list and at a changed element holds between the lists. -/
private theorem forall₂_modify {α : Type} {R : α → α → Prop} (hr : ∀ a, R a a) {f : α → α} :
    ∀ (l : List α) (i : Nat), (∀ a, l[i]? = some a → R a (f a)) → List.Forall₂ R l (l.modify i f)
  | [], i, _ => by cases i <;> exact .nil
  | a :: l, 0, h => .cons (h a rfl) (List.forall₂_same.mpr fun b _ => hr b)
  | a :: l, i + 1, h => .cons (hr a) (forall₂_modify hr l i h)

namespace Scope.Frame

variable {s s₁ s₂ s₃ : Scope}

@[refl] theorem refl (s : Scope) : s.Frame s :=
  ⟨rfl, rfl, List.forall₂_same.mpr fun e _ => .refl e, rfl⟩

theorem trans (h : s₁.Frame s₂) (h' : s₂.Frame s₃) : s₁.Frame s₃ := by
  refine ⟨h'.parent.trans h.parent, h'.role.trans h.role, ?_, h'.index.trans h.index⟩
  have h₁ := h.bindings
  have h₂ := h'.bindings
  -- The lists are all that matters; an induction needs them as variables.
  generalize s₁.vars.toList = l₁ at h₁
  generalize s₂.vars.toList = l₂ at h₁ h₂
  generalize s₃.vars.toList = l₃ at h₂
  induction h₁ generalizing l₃ with
  | nil => cases h₂; exact .nil
  | cons hab _ ih =>
    cases h₂ with
    | cons hbc hl => exact .cons (hab.trans hbc) (ih _ hl)

/-- The names of a framed scope. -/
theorem keys (h : s₁.Frame s₂) : s₂.vars.keys = s₁.vars.keys := by
  have hb := h.bindings
  unfold OrderedMap.keys
  generalize s₁.vars.toList = l₁ at hb
  generalize s₂.vars.toList = l₂ at hb
  induction hb with
  | nil => rfl
  | cons hab _ ih => simp [hab.1, ih]

/-- Another value for a binding that is not constant. -/
theorem of_modify {name : String} {b : Binding} {v : Value} (hb : s.vars.get? name = some b)
    (hk : b.kind ≠ .const) :
    s.Frame { s with vars := s.vars.modify name fun b => { b with value := v } } := by
  unfold OrderedMap.get? at hb
  refine ⟨rfl, rfl, ?_, ?_⟩
  · cases hi : s.vars.index[name]? with
    | none => rw [hi] at hb; cases hb
    -- The binding at this place is the one that was found, so it is not constant.
    | some i =>
      rw [hi] at hb
      simp only [OrderedMap.toList, OrderedMap.modify, OrderedMap.Raw.modify, hi,
        OrderedMap.Raw.modifyAt, Array.toList_modify]
      refine forall₂_modify .refl _ _ fun e he => ⟨rfl, rfl, fun hc => absurd ?_ hk⟩
      simp only [Array.getElem?_toList] at he
      simp only [he, Option.map_some, Option.some.injEq] at hb
      rw [← hb]
      exact hc
  · dsimp only [OrderedMap.modify, OrderedMap.Raw.modify]
    split <;> rfl

end Scope.Frame

/-! ### All scopes -/

namespace Scopes

variable {t t₁ t₂ t₃ : Scopes} {id j : ScopeId} {i : Option ScopeId}

/-- All scopes of `t` but the root and the scope `i` are framed. -/
def Frames (i : Option ScopeId) (t t' : Scopes) : Prop :=
  t.table.size ≤ t'.table.size ∧
    ∀ id < t.table.size, id ≠ root → some id ≠ i → (t.get id).Frame (t'.get id)

namespace Frames

theorem refl (i : Option ScopeId) (t : Scopes) : Frames i t t :=
  ⟨Nat.le_refl _, fun _ _ _ _ => .refl _⟩

theorem trans (h : Frames i t₁ t₂) (h' : Frames i t₂ t₃) : Frames i t₁ t₃ :=
  ⟨Nat.le_trans h.1 h'.1, fun id hlt hr hi =>
    (h.2 id hlt hr hi).trans (h'.2 id (Nat.lt_of_lt_of_le hlt h.1) hr hi)⟩

theorem widen (h : Frames none t₁ t₂) : Frames i t₁ t₂ :=
  ⟨h.1, fun id hlt hr _ => h.2 id hlt hr (by simp)⟩

/-- A change within the limits frames the other scopes. -/
theorem of_perform {w : ScopeWrite} (h : w.Within t i) : Frames i t (t.perform w) := by
  cases w with
  -- The new name goes to the root or to `i`, which are the scopes left out.
  | bind j name b =>
    refine ⟨by simp [perform, Scopes.bind], fun id _ hr hi => ?_⟩
    have hj : j ≠ id := by
      rintro rfl
      exact h.elim hr hi
    simp only [perform, Scopes.bind, get_modify, hj, false_and, if_false]
    exact .refl _
  -- The assigned scope may be any, and is framed as only a value changes.
  | update j name v =>
    obtain ⟨b, hb, hk⟩ := h
    refine ⟨by simp [perform, Scopes.update], fun id hlt _ _ => ?_⟩
    by_cases hj : j = id
    · subst hj
      simp only [perform, Scopes.update, get_modify, hlt, and_self, if_true]
      exact .of_modify hb hk
    · simp only [perform, Scopes.update, get_modify, hj, false_and, if_false]
      exact .refl _

/-- Names in a scope that was made meanwhile do not count. -/
theorem of_child {parent : ScopeId} {role : ScopeRole} {t' : Scopes}
    (h : Frames (some t.table.size) (t.child parent role).2 t') : Frames none t t' := by
  have hsize : (t.child parent role).2.table.size = t.table.size + 1 := by simp [child]
  refine ⟨by have := h.1; omega, fun id hlt hr _ => ?_⟩
  -- A scope that existed stands before the new one, and so is not the one left out.
  rw [← get_child hlt]
  refine h.2 id (by omega) hr fun he => ?_
  cases he
  omega

end Frames

end Scopes

/-! ### The evaluator -/

namespace Discipline

/-- The discipline of frames. Every statement may run anywhere, and nothing is asked of machines
that halt. -/
def frames : Discipline where
  keeps i m m' := m.scopes.Frames i m'.scopes
  halts _ _ _ := True
  fits _ _ := True

theorem frames_oblivious : frames.Oblivious where
  alike {i m m'} h := by
    change m.scopes.Frames i m'.scopes
    rw [h.scopes]
    exact .refl i _
  trans := Scopes.Frames.trans
  widen := Scopes.Frames.widen
  write h _ := .of_perform h
  child := Scopes.Frames.of_child
  moves _ := ⟨fun _ _ h => h, fun _ _ => trivial⟩
  alike_halts _ := trivial
  keeps_halts _ _ := trivial
  widen_halts _ := trivial
  child_halts _ := trivial
  part _ _ := trivial
  atScope _ := trivial
  body := trivial
  program _ _ _ := trivial
  sources _ := .refl _ _
  probed _ := .refl _ _
  sought _ _ := .refl _ _
  importing _ _ := ⟨fun _ _ h => h, fun _ _ => trivial⟩
  modules _ := .refl _ _
  note _ := .refl _ _

end Discipline

/-- Started in any machine, the computation frames all scopes that exist but the root and the one
that `room` names, whether it succeeds or fails. `room` is told the current scope. -/
def Eval.FramesScopes {α : Type} (room : ScopeId → Option ScopeId) (x : Eval α) : Prop :=
  ∀ m, match x m with
    | .ok _ m' | .error _ m' => m.scopes.Frames (room m.context.scope) m'.scopes
    | .halt _ _ => True

open Discipline

/-- What obeys the discipline of frames in every context frames the scopes. -/
private theorem framesScopes_of_obeys {α : Type} {x : Eval α}
    {room : ScopeId → Option ScopeId} (hx : ∀ c : Context, frames.Obeys c (room c.scope) x) :
    x.FramesScopes room := by
  intro m
  have h := (hx m.context).ends m rfl
  cases e : x m with
  | ok a m' => rw [e] at h; exact h.2
  | error d m' => rw [e] at h; exact h.2
  | halt r m' => trivial

/-- **Names stay in their scopes.** From every machine and at every depth, expressions and calls
frame all scopes but the root. Statements do, too, apart from the scope that they run in, and of it
also the names stay unless the statement is one that binds a name there. A body in a block of its
own binds nothing outside the block. -/
theorem scopes_framed (n : Nat) :
    (∀ e, ((Evaluator.ofBound n).expr e).FramesScopes fun _ => none) ∧
    (∀ f args loc name,
      ((Evaluator.ofBound n).call f args loc name).FramesScopes fun _ => none) ∧
    (∀ s, ((Evaluator.ofBound n).stmt s).FramesScopes fun scope => s.room scope) ∧
    (∀ body, (Eval.inBlock (Eval.runStatements (Evaluator.ofBound n) body)).FramesScopes
      fun _ => none) ∧
    (∀ body, (Eval.runStatements (Evaluator.ofBound n) body).FramesScopes some) := by
  have hO := frames_oblivious
  have hL := hO.toLawful
  have hev := evaluates_ofBound hL hO.imports n
  refine ⟨fun e => ?_, fun f args loc name => ?_, fun s => ?_, fun body => ?_, fun body => ?_⟩
  · exact framesScopes_of_obeys fun c => hev.expr c e
  · exact framesScopes_of_obeys fun c => hev.call c f args loc name
  · exact framesScopes_of_obeys fun c => hev.stmt c s trivial
  · exact framesScopes_of_obeys fun c => obeys_block hL hev fun _ _ => trivial
  · exact framesScopes_of_obeys fun c => obeys_runStatements hL hev fun _ _ => trivial

end ScriptLang
