/-!
# Ghosts

A ghost is a value that statements speak about and that takes no part in a computation: what a run
has been through, and which calls were active when an error was raised.

* `Ghost α` is the bare property of being some value of type `α`; `Ghost.val` is that value.
* `Ghost.map` and `Ghost.map₂` are what functions make of ghosts.
-/

namespace ScriptLang

/-- A value without its contents: the property of being it. -/
structure Ghost (α : Type) where
  is : α → Prop
  exists_eq : ∃ a, is = (a = ·)

namespace Ghost

variable {α β γ : Type}

/-- The ghost of a value. -/
@[inline] def of (a : α) : Ghost α := ⟨(a = ·), a, rfl⟩

instance [Inhabited α] : Inhabited (Ghost α) := ⟨of default⟩

instance : Repr (Ghost α) := ⟨fun _ _ => "_"⟩

/-- The value of a ghost. -/
noncomputable def val (g : Ghost α) : α := g.exists_eq.choose

theorem of_val (g : Ghost α) : of g.val = g := by
  obtain ⟨is, h⟩ := g
  have hv : is = (Ghost.val ⟨is, h⟩ = ·) := h.choose_spec
  simp only [of, mk.injEq]
  exact hv.symm

@[simp] theorem val_of (a : α) : (of a).val = a := by
  have h : of (of a).val = of a := of_val _
  have ha : (of (of a).val).is a := by rw [h]; rfl
  exact ha

/-- Two ghosts of one value are the same. -/
theorem ext_val {g g' : Ghost α} (h : g.val = g'.val) : g = g' := by
  rw [← of_val g, ← of_val g', h]

/-- What a function makes of two values. -/
@[inline] def map₂ (f : α → β → γ) (g : Ghost α) (g' : Ghost β) : Ghost γ :=
  ⟨fun c => ∃ a b, g.is a ∧ g'.is b ∧ f a b = c, by
    obtain ⟨a, ha⟩ := g.exists_eq
    obtain ⟨b, hb⟩ := g'.exists_eq
    exact ⟨f a b, funext fun c => by simp [ha, hb]⟩⟩

/-- What a function makes of a value. -/
@[inline] def map (f : α → β) (g : Ghost α) : Ghost β := map₂ (fun a _ => f a) g (of ())

@[simp] theorem map₂_of (f : α → β → γ) (a : α) (b : β) : map₂ f (of a) (of b) = of (f a b) := by
  simp [map₂, of]

@[simp] theorem val_map₂ (f : α → β → γ) (g : Ghost α) (g' : Ghost β) :
    (map₂ f g g').val = f g.val g'.val := by
  rw [← of_val g, ← of_val g', map₂_of, val_of, val_of, val_of]

@[simp] theorem val_map (f : α → β) (g : Ghost α) : (map f g).val = f g.val := by
  simp [map]

end Ghost

end ScriptLang
