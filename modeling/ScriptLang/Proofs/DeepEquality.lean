import Mathlib.Data.List.ProdSigma
import ScriptLang.Proofs.Bisimilarity
import ScriptLang.Proofs.Containment

/-!
# Equality by contents

Equality by contents takes a pair of containers for equal that it meets again inside of itself. Such
a pair has not been found to be equal, and it is forgotten when the comparison leaves it. So what it
says of a pair may rest on what it is still about to find out.

* `Heap.Compares` — the comparison, without a bound, and its answer. There always is one, since
  every pair that is entered is one less to enter (`Heap.compares_deepEqFrom`).
* Values that are found equal agree down to every depth, if the pairs that they are compared inside
  of do (`Heap.Compares.alikeTo`). This goes by induction on the depth, not on the comparison: the
  parts of a pair need to agree less deep than the pair, and at that depth the pair itself is known
  to agree.
* Values that are alike are not found to differ, since a difference is that of some parts
  (`Heap.Compares.of_alike`).
* `deepEq_iff_alike` is the main statement.
-/

namespace ScriptLang

namespace Heap

/-- The two containers of two values of the same kind. -/
def pair? : Value → Value → Option (Container × Container)
  | .array r, .array s => some (.array r, .array s)
  | .object r, .object s => some (.object r, .object s)
  | _, _ => none

/-- Number of elements or entries. -/
def width (h : Heap) : Container → Nat
  | .array r => (h.array r).size
  | .object r => (h.object r).size

/-- What is compared of two containers: elements by place, and the entries of the first one with
those that the second one has of the same key. -/
def parts (h : Heap) : Container × Container → List (Value × Option Value)
  | (.array r, .array s) =>
    ((h.array r).toList.zip (h.array s).toList).map fun p => (p.1, some p.2)
  | (.object r, .object s) => (h.object r).toList.map fun e => (e.2, (h.object s).get? e.1)
  | _ => []

/-- The comparison goes on to the parts of a pair. -/
structure Enters (h : Heap) (path : List (Container × Container)) (a b : Value)
    (p : Container × Container) : Prop where
  differ : a.same b = false
  pair : pair? a b = some p
  new : p ∉ path
  width : h.width p.1 = h.width p.2

/-- **Compares.** The comparison of two values inside that of the pairs `path`, and its answer.
Parts are compared one after the other, up to the first that differs. -/
inductive Compares (h : Heap) : List (Container × Container) → Value → Value → Bool → Prop
  | same {path a b} (hs : a.same b = true) : Compares h path a b true
  | unlike {path a b} (hs : a.same b = false) (hp : pair? a b = none) : Compares h path a b false
  | again {path a b p} (hs : a.same b = false) (hp : pair? a b = some p) (hm : p ∈ path) :
    Compares h path a b true
  | sizes {path a b p} (hs : a.same b = false) (hp : pair? a b = some p) (hm : p ∉ path)
    (hw : h.width p.1 ≠ h.width p.2) : Compares h path a b false
  | equal {path a b p} (he : h.Enters path a b p) (hnone : ∀ v, (v, none) ∉ h.parts p)
    (hi : ∀ v w, (v, some w) ∈ h.parts p → Compares h (p :: path) v w true) :
    Compares h path a b true
  | missing {path a b p before v after} (he : h.Enters path a b p)
    (hparts : h.parts p = before ++ (v, none) :: after) (hnone : ∀ v, (v, none) ∉ before)
    (hi : ∀ v w, (v, some w) ∈ before → Compares h (p :: path) v w true) :
    Compares h path a b false
  | differ {path a b p before v w after} (he : h.Enters path a b p)
    (hparts : h.parts p = before ++ (v, some w) :: after) (hnone : ∀ v, (v, none) ∉ before)
    (hi : ∀ v w, (v, some w) ∈ before → Compares h (p :: path) v w true)
    (hd : Compares h (p :: path) v w false) : Compares h path a b false

variable {h : Heap} {R : Value → Value → Prop} {path : List (Container × Container)}
  {a b v w : Value} {o : Option Value} {p : Container × Container} {answer : Bool} {n k : Nat}
  {r s : Ref}

/-! ### Parts -/

theorem mem_parts_array :
    (v, o) ∈ h.parts (.array r, .array s) ↔
      ∃ (i : Nat) (w : Value),
        (h.array r)[i]? = some v ∧ (h.array s)[i]? = some w ∧ o = some w := by
  rw [parts, List.mem_map]
  simp only [List.mem_iff_getElem?, List.getElem?_zip_eq_some, Array.getElem?_toList, Prod.mk.injEq]
  constructor
  · rintro ⟨⟨v, w⟩, ⟨i, hv, hw⟩, rfl, rfl⟩
    exact ⟨i, w, hv, hw, rfl⟩
  · rintro ⟨i, w, hv, hw, rfl⟩
    exact ⟨(v, w), ⟨i, hv, hw⟩, rfl, rfl⟩

theorem mem_parts_object :
    (v, o) ∈ h.parts (.object r, .object s) ↔
      ∃ k, (h.object r).get? k = some v ∧ (h.object s).get? k = o := by
  simp only [parts, List.mem_map, Prod.mk.injEq, OrderedMap.get?_eq_some_iff]
  constructor
  · rintro ⟨⟨k, v⟩, he, rfl, rfl⟩
    exact ⟨k, he, rfl⟩
  · rintro ⟨k, he, rfl⟩
    exact ⟨(k, v), he, rfl, rfl⟩

theorem pair?_inj {a' b' : Value} (hp : pair? a b = some p) (hp' : pair? a' b' = some p) :
    a' = a ∧ b' = b := by
  unfold pair? at hp hp'
  split at hp <;> cases hp <;> split at hp' <;> cases hp' <;> exact ⟨rfl, rfl⟩

/-- Values that match and are not the same are containers of one kind. -/
theorem Matches.pair?_ne_none (hm : h.Matches R a b) (hs : a.same b = false) :
    pair? a b ≠ none := by
  cases hm with
  | same hs' => exact absurd (hs.symm.trans hs') nofun
  | arrays _ _ => exact nofun
  | objects _ _ => exact nofun

/-- Arrays match by their parts. -/
theorem matches_array_iff (hs : (Value.array r).same (.array s) = false) :
    h.Matches R (.array r) (.array s) ↔
      h.width (.array r) = h.width (.array s) ∧
      (∀ v, (v, none) ∉ h.parts (.array r, .array s)) ∧
      ∀ v w, (v, some w) ∈ h.parts (.array r, .array s) → R v w := by
  constructor
  · rintro (hs' | ⟨hsize, hitems⟩)
    · exact absurd (hs.symm.trans hs') nofun
    · refine ⟨hsize, fun v hv => ?_, fun v w hvw => ?_⟩
      · obtain ⟨_, _, _, _, hw⟩ := mem_parts_array.mp hv
        cases hw
      · obtain ⟨i, _, hv, hw, hw'⟩ := mem_parts_array.mp hvw
        exact hitems i v w hv (hw'.symm ▸ hw)
  · rintro ⟨hsize, -, hrelated⟩
    exact .arrays hsize fun i v w hv hw => hrelated v w (mem_parts_array.mpr ⟨i, w, hv, hw, rfl⟩)

/-- Objects match by their parts. -/
theorem matches_object_iff (hs : (Value.object r).same (.object s) = false) :
    h.Matches R (.object r) (.object s) ↔
      h.width (.object r) = h.width (.object s) ∧
      (∀ v, (v, none) ∉ h.parts (.object r, .object s)) ∧
      ∀ v w, (v, some w) ∈ h.parts (.object r, .object s) → R v w := by
  have hkeys := (h.object r).mem_keys_iff_iff (h.object s)
  constructor
  · rintro (hs' | _ | ⟨hsame, hvalues⟩)
    · exact absurd (hs.symm.trans hs') nofun
    · obtain ⟨hsize, hsub⟩ := hkeys.mp hsame
      refine ⟨hsize, fun v hv => ?_, fun v w hvw => ?_⟩
      · -- The key of a missing part would be a key of the first object only.
        obtain ⟨k, hk, hnone⟩ := mem_parts_object.mp hv
        have hmem := hsub (OrderedMap.isSome_get?_iff.mp (by rw [hk]; rfl))
        rw [← OrderedMap.isSome_get?_iff, hnone] at hmem
        cases hmem
      · obtain ⟨k, hv, hw⟩ := mem_parts_object.mp hvw
        exact hvalues k v w hv hw
  · rintro ⟨hsize, hnone, hrelated⟩
    -- As many keys, and none of the first object's missing, so the keys are the same.
    refine .objects (hkeys.mpr ⟨hsize, fun k hk => ?_⟩) fun k v w hv hw =>
      hrelated v w (mem_parts_object.mpr ⟨k, hv, hw⟩)
    rw [← OrderedMap.isSome_get?_iff, Option.isSome_iff_exists] at hk
    obtain ⟨v, hv⟩ := hk
    rw [← OrderedMap.isSome_get?_iff, Option.isSome_iff_ne_none]
    exact fun hw => hnone v (mem_parts_object.mpr ⟨k, hv, hw⟩)

/-- Containers match exactly if they are of one width, and all their parts are there and related. -/
theorem matches_iff (hs : a.same b = false) (hp : pair? a b = some p) :
    h.Matches R a b ↔ h.width p.1 = h.width p.2 ∧ (∀ v, (v, none) ∉ h.parts p) ∧
      ∀ v w, (v, some w) ∈ h.parts p → R v w := by
  unfold pair? at hp
  split at hp <;> cases hp
  · exact matches_array_iff hs
  · exact matches_object_iff hs

/-! ### The comparison ends -/

/-- The pairs that a comparison may enter. -/
def pairs (h : Heap) : List (Container × Container) :=
  (List.range h.arrays.size ×ˢ List.range h.arrays.size).map (Prod.map .array .array) ++
    (List.range h.objects.size ×ˢ List.range h.objects.size).map (Prod.map .object .object)

theorem length_pairs (h : Heap) :
    h.pairs.length = h.arrays.size * h.arrays.size + h.objects.size * h.objects.size := by
  simp [pairs, List.length_product]

/-- Both containers of a pair are in the heap if each has a part. -/
theorem mem_pairs (hvw : (v, some w) ∈ h.parts p) : p ∈ h.pairs := by
  unfold pairs
  obtain ⟨r | r, s | s⟩ := p
  · obtain ⟨i, w, hv, hw, -⟩ := mem_parts_array.mp hvw
    have hr : .array r ∈ h.containers :=
      mem_containers (Array.mem_toList_iff.mpr (Array.mem_of_getElem? hv))
    have hs : .array s ∈ h.containers :=
      mem_containers (Array.mem_toList_iff.mpr (Array.mem_of_getElem? hw))
    simp_all [containers]
  · cases hvw
  · cases hvw
  · obtain ⟨k, hv, hw⟩ := mem_parts_object.mp hvw
    have hr : .object r ∈ h.containers :=
      mem_containers (List.mem_map_of_mem (OrderedMap.get?_eq_some_iff.mp hv))
    have hs : .object s ∈ h.containers :=
      mem_containers (List.mem_map_of_mem (OrderedMap.get?_eq_some_iff.mp hw))
    simp_all [containers]

/-- The first of some things that fails a test. -/
theorem exists_first_false {α : Type} {f : α → Bool} {l : List α} (hl : l.all f = false) :
    ∃ before x after, l = before ++ x :: after ∧ (∀ y ∈ before, f y = true) ∧ f x = false := by
  obtain ⟨x, hx⟩ : ∃ x, l.find? (fun y => !f y) = some x := by
    rw [← Option.isSome_iff_exists, List.find?_isSome]
    simpa using hl
  obtain ⟨hfalse, before, after, hl, hbefore⟩ := List.find?_eq_some_iff_append.mp hx
  exact ⟨before, x, after, hl, by simpa using hbefore, by simpa using hfalse⟩

theorem deepEqFrom_succ (h : Heap) (n : Nat) (path : List (Container × Container)) (a b : Value) :
    h.deepEqFrom (n + 1) path a b = if a.same b then true else match pair? a b with
      | none => false
      | some p => if path.contains p then true else h.width p.1 == h.width p.2 &&
          (h.parts p).all fun q => q.2.any (h.deepEqFrom n (p :: path) q.1) := by
  cases a with
  | array r => cases b with
    | array s => simp [deepEqFrom, pair?, width, parts, Function.comp_def]
    | _ => rfl
  | object r => cases b with
    | object s =>
      simp only [deepEqFrom, pair?, width, parts, List.all_map, Function.comp_def]
      congr
      funext e
      cases (h.object s).get? e.1 <;> rfl
    | _ => rfl
  | _ => cases b <;> rfl

/-- If the parts of a pair are compared, so is the pair. -/
theorem Enters.compares (he : h.Enters path a b p) {f : Value → Value → Bool}
    (hf : ∀ v w, (v, some w) ∈ h.parts p → h.Compares (p :: path) v w (f v w)) :
    h.Compares path a b ((h.parts p).all fun q => q.2.any (f q.1)) := by
  -- Parts that pass are there and equal.
  have hnone : ∀ l : List (Value × Option Value), (∀ q ∈ l, q.2.any (f q.1) = true) →
      ∀ v, (v, none) ∉ l := fun l hl v hv => absurd (hl _ hv) nofun
  have hequal : ∀ l ⊆ h.parts p, (∀ q ∈ l, q.2.any (f q.1) = true) →
      ∀ v w, (v, some w) ∈ l → h.Compares (p :: path) v w true := fun l hsub hl v w hvw =>
    (show f v w = true from hl _ hvw) ▸ hf v w (hsub hvw)
  cases hall : (h.parts p).all fun q => q.2.any (f q.1) with
  | true =>
    rw [List.all_eq_true] at hall
    exact .equal he (hnone _ hall) (hequal _ (List.Subset.refl _) hall)
  | false =>
    obtain ⟨before, ⟨v, o⟩, after, hparts, hbefore, hfalse⟩ := exists_first_false hall
    have hsub : before ⊆ h.parts p := hparts ▸ List.subset_append_left _ _
    cases o with
    | none => exact .missing he hparts (hnone _ hbefore) (hequal _ hsub hbefore)
    | some w =>
      have hvw : (v, some w) ∈ h.parts p := hparts ▸ List.mem_append_right _ List.mem_cons_self
      exact .differ he hparts (hnone _ hbefore) (hequal _ hsub hbefore)
        ((show f v w = false from hfalse) ▸ hf v w hvw)

/-- **The comparison ends.** A bound above the number of pairs that are not entered is not met. -/
theorem compares_deepEqFrom (hn : freshCount h.pairs path < n) :
    h.Compares path a b (h.deepEqFrom n path a b) := by
  induction n generalizing path a b with
  | zero => exact absurd hn (Nat.not_lt_zero _)
  | succ n ih =>
    rw [deepEqFrom_succ]
    cases hs : a.same b with
    | true => exact .same hs
    | false =>
      cases hp : pair? a b with
      | none => exact .unlike hs hp
      | some p =>
        by_cases hm : p ∈ path
        · simpa [hm] using Compares.again hs hp hm
        · by_cases hw : h.width p.1 = h.width p.2
          · -- The pair is entered, so one pair fewer is left to enter.
            have he : h.Enters path a b p := ⟨hs, hp, hm, hw⟩
            have hparts := he.compares fun v w hvw =>
              ih (freshCount_cons_lt_of_lt_succ hn (mem_pairs hvw) hm)
            simpa [hm, hw] using hparts
          · simpa [hm, beq_false_of_ne hw] using Compares.sizes hs hp hm hw

theorem compares_deepEq (a b : Value) : h.Compares [] a b (h.deepEq a b) :=
  compares_deepEqFrom (Nat.lt_succ_of_le (h.length_pairs ▸ freshCount_le h.pairs []))

/-! ### The comparison is right -/

/-- **Depth.** What is found equal agrees at every depth at which the pairs around it agree. By
induction on the depth. The parts of a pair are compared inside the pair, and have to agree at a
depth at which the pair is known to do so. -/
theorem Compares.alikeTo (hc : h.Compares path a b true)
    (hpath : ∀ v w p, pair? v w = some p → p ∈ path → h.AlikeTo k v w) : h.AlikeTo k a b := by
  induction k generalizing path a b with
  | zero => trivial
  | succ k ih =>
    have hpath' : ∀ v w p, pair? v w = some p → p ∈ path → h.AlikeTo k v w :=
      fun v w p hp hm => (hpath v w p hp hm).of_succ
    cases hc with
    | same hs => exact .same hs
    | again hs hp hm => exact hpath a b _ hp hm
    | @equal _ _ _ p he hnone hi =>
      -- The pair agrees one level less deep, so it may stand around its own parts.
      have hab : h.AlikeTo k a b := ih (.equal he hnone hi) hpath'
      refine (matches_iff he.differ he.pair).mpr ⟨he.width, hnone, fun v w hvw => ?_⟩
      refine ih (hi v w hvw) fun v' w' q hq hm => ?_
      rcases List.mem_cons.mp hm with rfl | hm
      · obtain ⟨rfl, rfl⟩ := pair?_inj he.pair hq
        exact hab
      · exact hpath' v' w' q hq hm

/-- What is found equal is alike. -/
theorem Compares.alike (hc : h.Compares [] a b true) : h.Alike a b :=
  alike_of_forall fun _ => hc.alikeTo fun _ _ _ _ => nofun

/-- **Differences.** Alike values are found equal, inside whatever pairs. -/
theorem Compares.of_alike (hc : h.Compares path a b answer) (hab : h.Alike a b) :
    answer = true := by
  have hm := h.bisimulation_alike a b hab
  induction hc with
  | same _ => rfl
  | again _ _ _ => rfl
  | equal _ _ _ _ => rfl
  | unlike hs hp => exact absurd hp (hm.pair?_ne_none hs)
  | sizes hs hp _ hw => exact absurd ((matches_iff hs hp).mp hm).1 hw
  | missing he hparts _ _ _ =>
    have hnone := ((matches_iff he.differ he.pair).mp hm).2.1
    exact absurd (hparts ▸ List.mem_append_right _ List.mem_cons_self) (hnone _)
  | differ he hparts _ _ _ _ ih =>
    have hvw := ((matches_iff he.differ he.pair).mp hm).2.2 _ _
      (hparts ▸ List.mem_append_right _ List.mem_cons_self)
    exact ih hvw (h.bisimulation_alike _ _ hvw)

theorem Compares.iff_alike (hc : h.Compares [] a b answer) :
    answer = true ↔ h.Alike a b :=
  ⟨fun ht => (ht ▸ hc).alike, hc.of_alike⟩

end Heap

/-! ### The main statement -/

/-- **Equality by contents is likeness.** In any heap, whatever is inside of what, the comparison of
two values ends with one answer, which is `deepEq`. It says that they are equal exactly if some
bisimulation relates them. So it is symmetric and transitive. -/
theorem deepEq_iff_alike (h : Heap) :
    (∀ a b answer, h.Compares [] a b answer ↔ answer = h.deepEq a b) ∧
    (∀ a b, h.deepEq a b = true ↔ h.Alike a b) ∧
    (∀ a b, h.deepEq a b = true → h.deepEq b a = true) ∧
    ∀ a b c, h.deepEq a b = true → h.deepEq b c = true → h.deepEq a c = true := by
  have halike : ∀ a b, h.deepEq a b = true ↔ h.Alike a b := fun a b =>
    (Heap.compares_deepEq a b).iff_alike
  refine ⟨fun a b answer => ⟨fun hc => ?_, ?_⟩, halike, fun a b hab => ?_, fun a b c hab hbc => ?_⟩
  · rw [Bool.eq_iff_iff, hc.iff_alike, halike]
  · rintro rfl
    exact Heap.compares_deepEq a b
  · exact (halike b a).mpr ((halike a b).mp hab).symm
  · exact (halike a c).mpr (((halike a b).mp hab).trans ((halike b c).mp hbc))

/-- Two objects inside themselves with their keys in different orders, and one that differs. -/
theorem deepEq_iff_alike_order :
    let h := (((Heap.empty.allocObject
      (.ofList [("next", .object 0), ("end", .null)])).2.allocObject
      (.ofList [("end", .null), ("next", .object 1)])).2.allocObject
      (.ofList [("next", .object 2), ("end", .bool true)])).2
    h.deepEq (.object 0) (.object 1) = true ∧ h.Alike (.object 1) (.object 0) ∧
      ¬ h.Alike (.object 0) (.object 2) := by
  intro h
  obtain ⟨_, halike, hsymm, _⟩ := deepEq_iff_alike h
  have hequal : h.deepEq (.object 0) (.object 1) = true := by cbv
  have hdiffers : h.deepEq (.object 0) (.object 2) = false := by cbv
  refine ⟨hequal, (halike _ _).mp (hsymm _ _ hequal), ?_⟩
  rw [← halike, hdiffers]
  exact Bool.false_ne_true

end ScriptLang
