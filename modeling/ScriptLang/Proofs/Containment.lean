import Mathlib.Data.Finset.Card
import Mathlib.Logic.Relation
import ScriptLang.Value.Heap

/-!
# What containers hold

A container holds values, some of which are containers again, perhaps ones that it is inside of.

* `Heap.Contains` — a value is directly inside another one. `Heap.Reaches` — a value is another one,
  or inside it at some depth.
* `Heap.Cyclic` — a value reaches a container that is inside itself.
* `freshCount` — how many things a walk may still enter that enters none of them inside itself. The
  bounds of such walks are above it, and every step lowers it (`freshCount_cons_lt`).
-/

namespace ScriptLang

/-! ### Walks -/

section Walks

variable {α : Type} [DecidableEq α] {all path : List α} {a : α}

/-- How many of some things are not on a path. -/
def freshCount (all path : List α) : Nat := (all.toFinset \ path.toFinset).card

theorem freshCount_le (all path : List α) : freshCount all path ≤ all.length :=
  (Finset.card_le_card Finset.sdiff_subset).trans (List.toFinset_card_le all)

/-- Something is on the path that was not. -/
theorem freshCount_cons_lt (ha : a ∈ all) (hp : a ∉ path) :
    freshCount all (a :: path) < freshCount all path := by
  refine Finset.card_lt_card ⟨fun b hb => ?_, fun h => ?_⟩
  · simp only [Finset.mem_sdiff, List.mem_toFinset, List.mem_cons, not_or] at hb ⊢
    exact ⟨hb.1, hb.2.2⟩
  · have ha' := h (Finset.mem_sdiff.mpr ⟨List.mem_toFinset.mpr ha, mt List.mem_toFinset.mp hp⟩)
    simp at ha'

/-- A bound for a walk is one more than a bound for the walk that is further in. -/
theorem freshCount_cons_lt_of_lt_succ {n : Nat} (hn : freshCount all path < n + 1) (ha : a ∈ all)
    (hp : a ∉ path) : freshCount all (a :: path) < n :=
  Nat.lt_of_lt_of_le (freshCount_cons_lt ha hp) (Nat.le_of_lt_succ hn)

end Walks

/-! ### Values inside values -/

/-- Containers are equal if they are the same one. -/
theorem Value.container?_inj {v w : Value} {c : Container} (hv : v.container? = some c)
    (hw : w.container? = some c) : v = w := by
  cases v <;> cases hv <;> cases w <;> cases hw <;> rfl

namespace Heap

variable {h : Heap} {v w : Value} {c : Container} {r : Ref} {path : List Container} {n : Nat}

/-- **Contains.** The second value is directly inside the first one. -/
def Contains (h : Heap) (v w : Value) : Prop := ∃ c, v.container? = some c ∧ w ∈ h.children c

/-- **Reaches.** The second value is the first one or inside it, through elements of arrays and
values of objects. -/
def Reaches (h : Heap) : Value → Value → Prop := Relation.ReflTransGen h.Contains

/-- **Cyclic.** The value reaches a container that reaches itself. -/
def Cyclic (h : Heap) (v : Value) : Prop :=
  ∃ w, h.Reaches v w ∧ Relation.TransGen h.Contains w w

theorem Cyclic.of_contains (hv : h.Contains v w) (hw : h.Cyclic w) : h.Cyclic v := by
  obtain ⟨u, hu, hcycle⟩ := hw
  exact ⟨u, hu.head hv, hcycle⟩

/-- A cyclic value holds a cyclic value. -/
theorem Cyclic.inside (hv : h.Cyclic v) : ∃ w, h.Contains v w ∧ h.Cyclic w := by
  obtain ⟨u, hu, hcycle⟩ := hv
  rcases hu.cases_head with rfl | ⟨w, hw, hwu⟩
  · obtain ⟨w, hw, hwu⟩ := Relation.TransGen.head'_iff.mp hcycle
    exact ⟨w, hw, v, hwu, hcycle⟩
  · exact ⟨w, hw, u, hwu, hcycle⟩

theorem contains_array (hw : w ∈ (h.array r).toList) : h.Contains (.array r) w :=
  ⟨_, rfl, hw⟩

theorem contains_object (hw : w ∈ (h.object r).values) : h.Contains (.object r) w :=
  ⟨_, rfl, hw⟩

/-- Nothing is inside a scalar. -/
theorem not_contains (hv : v.container? = none) : ¬ h.Contains v w := by
  rintro ⟨c, hc, _⟩
  rw [hv] at hc
  cases hc

/-! ### The containers of a heap -/

/-- The containers that a heap has. -/
def containers (h : Heap) : List Container :=
  (List.range h.arrays.size).map .array ++ (List.range h.objects.size).map .object

theorem length_containers (h : Heap) : h.containers.length = h.size := by
  simp [containers, size]

/-- A reference that leads nowhere stands for an empty container. -/
theorem mem_containers (hw : w ∈ h.children c) : c ∈ h.containers := by
  cases c with
  | array r =>
    have hr : r < h.arrays.size := by
      by_contra hr
      simp [children, array, Array.getElem?_eq_none (Nat.le_of_not_lt hr)] at hw
    simp [containers, hr]
  | object r =>
    have hr : r < h.objects.size := by
      by_contra hr
      simp [children, object, OrderedMap.values, OrderedMap.toList, OrderedMap.empty,
        Array.getElem?_eq_none (Nat.le_of_not_lt hr)] at hw
    simp [containers, hr]

/-- The bound of the walks through a heap. -/
theorem freshCount_containers_le (h : Heap) (path : List Container) :
    freshCount h.containers path ≤ h.size :=
  h.length_containers ▸ freshCount_le h.containers path

/-- A bound above the number of containers that are not entered. -/
theorem exists_succ_of_fresh (hn : freshCount h.containers path < n) : ∃ m, n = m + 1 :=
  Nat.exists_eq_succ_of_ne_zero (Nat.ne_of_gt (Nat.zero_lt_of_lt hn))

/-- There is a bound for what is inside of a container that is entered. -/
theorem fresh_inside (hn : freshCount h.containers path < n + 1) (hc : c ∉ path)
    (hv : v ∈ h.children c) : freshCount h.containers (c :: path) < n :=
  freshCount_cons_lt_of_lt_succ hn (mem_containers hv) hc

end Heap

end ScriptLang
