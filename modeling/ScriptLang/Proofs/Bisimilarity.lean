import Mathlib
import ScriptLang.Proofs.IndexedMaps
import ScriptLang.Value.Equality

/-!
# Values alike

When the contents of two values are alike cannot be said by recursion, since a value may be inside
itself. Instead, two values are alike if some bisimulation relates them: a relation under which
related values are the same, or containers of one shape with related contents.

* `Heap.Matches` is one step down from two values, `Heap.Bisimulation` a relation that allows the
  step, and `Heap.Alike` the largest of these (`Heap.bisimulation_alike`).
* `Heap.Alike.symm` and `Heap.Alike.trans`. There is no reflexivity, since not-a-number is not alike
  to itself.
* `Heap.AlikeTo` — the values agree down to some depth. Values that do so at every depth are alike
  (`Heap.alike_of_forall`).
-/

namespace ScriptLang

/-! ### Sameness -/

namespace Value

variable {a b c : Value} {r : Ref}

attribute [local simp] same

/-- Numbers are equal if they differ in the sign of zero at most and neither is not-a-number. -/
theorem number_symm {x y : Float} (h : (x == y) = true) : (y == x) = true := by
  rw [Float.beq_iff_ne_nan_and_eq] at h ⊢
  grind

theorem number_trans {x y z : Float} (h : (x == y) = true) (h' : (y == z) = true) :
    (x == z) = true := by
  rw [Float.beq_iff_ne_nan_and_eq] at h h' ⊢
  grind

theorem same_symm (h : a.same b = true) : b.same a = true := by
  cases a <;> cases b <;> simp only [same, Bool.false_eq_true, beq_iff_eq] at h ⊢ <;>
    first
      | exact h.symm
      | exact number_symm h

theorem same_trans (h : a.same b = true) (h' : b.same c = true) : a.same c = true := by
  cases a <;> cases b <;> simp only [same, Bool.false_eq_true, beq_iff_eq] at h <;> cases c <;>
    simp only [same, Bool.false_eq_true, beq_iff_eq] at h' ⊢ <;>
    first
      | exact h.trans h'
      | exact number_trans h h'

/-- An array is the same as itself alone. -/
theorem eq_array_of_same (h : a.same (.array r) = true) : a = .array r := by
  cases a <;> simp_all

/-- An object is the same as itself alone. -/
theorem eq_object_of_same (h : a.same (.object r) = true) : a = .object r := by
  cases a <;> simp_all

end Value

namespace Heap

/-- **Matches.** Two values are the same, or arrays of one length with related elements, or objects
of the same keys, in any order, with related values. -/
inductive Matches (h : Heap) (R : Value → Value → Prop) : Value → Value → Prop
  | same {a b} (hs : a.same b = true) : Matches h R a b
  | arrays {r s} (hsize : (h.array r).size = (h.array s).size)
    (hitems : ∀ (i : Nat) v w, (h.array r)[i]? = some v → (h.array s)[i]? = some w → R v w) :
    Matches h R (.array r) (.array s)
  | objects {r s} (hkeys : ∀ k, k ∈ (h.object r).keys ↔ k ∈ (h.object s).keys)
    (hvalues : ∀ k v w, (h.object r).get? k = some v → (h.object s).get? k = some w → R v w) :
    Matches h R (.object r) (.object s)

/-- **Bisimulations.** Related values match. -/
def Bisimulation (h : Heap) (R : Value → Value → Prop) : Prop := ∀ a b, R a b → h.Matches R a b

/-- **Alike.** Some bisimulation relates the values. -/
def Alike (h : Heap) (a b : Value) : Prop := ∃ R, h.Bisimulation R ∧ R a b

/-- The values agree down to a depth. -/
def AlikeTo (h : Heap) : Nat → Value → Value → Prop
  | 0 => fun _ _ => True
  | k + 1 => h.Matches (h.AlikeTo k)

variable {h : Heap} {R S : Value → Value → Prop} {a b c : Value} {k : Nat} {r s : Ref}

/-! ### One step -/

theorem Matches.mono (hm : h.Matches R a b) (hRS : ∀ v w, R v w → S v w) : h.Matches S a b := by
  cases hm with
  | same hs => exact .same hs
  | arrays hsize hitems => exact .arrays hsize fun i v w hv hw => hRS v w (hitems i v w hv hw)
  | objects hkeys hvalues => exact .objects hkeys fun k v w hv hw => hRS v w (hvalues k v w hv hw)

theorem Matches.symm (hm : h.Matches R a b) : h.Matches (fun v w => R w v) b a := by
  cases hm with
  | same hs => exact .same (Value.same_symm hs)
  | arrays hsize hitems => exact .arrays hsize.symm fun i v w hv hw => hitems i w v hw hv
  | objects hkeys hvalues =>
    exact .objects (fun k => (hkeys k).symm) fun k v w hv hw => hvalues k w v hw hv

/-- Two steps in a row. A container may be the same as the next one or match it by its contents, so
contents are related once or twice. -/
theorem Matches.trans (hm : h.Matches R a b) (hm' : h.Matches R b c) :
    h.Matches (fun v w => R v w ∨ ∃ u, R v u ∧ R u w) a c := by
  cases hm with
  | same hs =>
    cases hm' with
    | same hs' => exact .same (Value.same_trans hs hs')
    | arrays hsize hitems =>
      rw [Value.eq_array_of_same hs]
      exact .arrays hsize fun i v w hv hw => .inl (hitems i v w hv hw)
    | objects hkeys hvalues =>
      rw [Value.eq_object_of_same hs]
      exact .objects hkeys fun k v w hv hw => .inl (hvalues k v w hv hw)
  | arrays hsize hitems =>
    cases hm' with
    | same hs' =>
      rw [Value.eq_array_of_same (Value.same_symm hs')]
      exact .arrays hsize fun i v w hv hw => .inl (hitems i v w hv hw)
    | @arrays _ t hsize' hitems' =>
      -- The array between the two has an element at every place of theirs.
      refine .arrays (hsize.trans hsize') fun i v w hv hw => .inr ?_
      obtain ⟨hi, -⟩ := Array.getElem?_eq_some_iff.mp hv
      have hu := Array.getElem?_eq_getElem (hsize ▸ hi)
      exact ⟨_, hitems i v _ hv hu, hitems' i _ w hu hw⟩
  | @objects _ s hkeys hvalues =>
    cases hm' with
    | same hs' =>
      rw [Value.eq_object_of_same (Value.same_symm hs')]
      exact .objects hkeys fun k v w hv hw => .inl (hvalues k v w hv hw)
    | objects hkeys' hvalues' =>
      refine .objects (fun k => (hkeys k).trans (hkeys' k)) fun k v w hv hw => .inr ?_
      -- The object between the two has every key of theirs.
      have hk := (hkeys k).mp (OrderedMap.isSome_get?_iff.mp (by rw [hv]; rfl))
      rw [← OrderedMap.isSome_get?_iff, Option.isSome_iff_exists] at hk
      obtain ⟨u, hu⟩ := hk
      exact ⟨u, hvalues k v u hv hu, hvalues' k u w hu hw⟩

/-- Values that match in each of many ways match in all of them at once. -/
theorem Matches.forall {R : Nat → Value → Value → Prop} (hm : ∀ k, h.Matches (R k) a b) :
    h.Matches (fun v w => ∀ k, R k v w) a b := by
  by_cases hs : a.same b = true
  · exact .same hs
  · -- One of the ways says what kind of containers they are, so all of them do.
    cases hm 0 with
    | same hs' => exact absurd hs' hs
    | arrays hsize _ =>
      refine .arrays hsize fun i v w hv hw k => ?_
      cases hm k with
      | same hs' => exact absurd hs' hs
      | arrays _ hitems => exact hitems i v w hv hw
    | objects hkeys _ =>
      refine .objects hkeys fun key v w hv hw k => ?_
      cases hm k with
      | same hs' => exact absurd hs' hs
      | objects _ hvalues => exact hvalues key v w hv hw

/-! ### The largest bisimulation -/

theorem bisimulation_alike (h : Heap) : h.Bisimulation h.Alike := by
  rintro a b ⟨R, hR, hab⟩
  exact (hR a b hab).mono fun v w hvw => ⟨R, hR, hvw⟩

theorem Alike.symm (hab : h.Alike a b) : h.Alike b a :=
  ⟨fun v w => h.Alike w v, fun _ _ hvw => (h.bisimulation_alike _ _ hvw).symm, hab⟩

theorem Alike.trans (hab : h.Alike a b) (hbc : h.Alike b c) : h.Alike a c := by
  refine ⟨fun v w => h.Alike v w ∨ ∃ u, h.Alike v u ∧ h.Alike u w, ?_, .inr ⟨b, hab, hbc⟩⟩
  rintro v w (hvw | ⟨u, hvu, huw⟩)
  · exact (h.bisimulation_alike v w hvw).mono fun _ _ => .inl
  · exact (h.bisimulation_alike v u hvu).trans (h.bisimulation_alike u w huw)

/-! ### Depth -/

theorem AlikeTo.of_succ (hab : h.AlikeTo (k + 1) a b) : h.AlikeTo k a b := by
  induction k generalizing a b with
  | zero => trivial
  | succ k ih => exact Matches.mono hab fun v w => ih

/-- Values that agree at every depth are alike. -/
theorem alike_of_forall (hab : ∀ k, h.AlikeTo k a b) : h.Alike a b :=
  ⟨fun v w => ∀ k, h.AlikeTo k v w, fun _ _ hvw => Matches.forall fun k => hvw (k + 1), hab⟩

end Heap

end ScriptLang
