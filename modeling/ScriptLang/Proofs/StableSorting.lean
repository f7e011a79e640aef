import Mathlib
import ScriptLang.Library.Dispatch
import ScriptLang.Proofs.SparedContainers

/-!
# Arrays are sorted stably

Numbers are sorted by size, texts by their characters, and all other arrays by printed forms. Each
of these is a way to sort by a key from a linear order, and elements with equal keys stay in order.

* `Binary.place` is where a number stands among all numbers, with one place for both zeros. Numbers
  compare as their places do (`Binary.compare_place`), so without not-a-number they are totally
  preordered.
* `SortsBy` says of two lists that the second one has the elements of the first one, sorted by a
  key, and that the elements of any one key are in their old order. Merging halves does this
  (`sortsBy_mergeSort`), also if the comparison agrees with that of keys for the elements alone.
* `ArrayFn.Precedes` is the order that an array is put into, which depends on the kinds of all its
  elements, and `ArrayFn.IsSorted` is what sorting is to do.
* `arrays_sort_stably` is the main statement. Numbers among which there is a not-a-number are left
  out: they have no order.
-/

namespace ScriptLang

/-! ### The order of numbers -/

namespace Binary

open Float.Model

/-- **Place.** Where a number stands among numbers: first by its class, then by its exponent, then
by its mantissa. Among negative numbers the larger ones come first. -/
def place : UnpackedFloat → Int ×ₗ Int ×ₗ Int
  | .infinity .negative => toLex (-2, toLex (0, 0))
  | .finite .negative m e _ => toLex (-1, toLex (-e, -m))
  | .zero _ | .notANumber => toLex (0, toLex (0, 0))
  | .finite .positive m e _ => toLex (1, toLex (e, m))
  | .infinity .positive => toLex (2, toLex (0, 0))

variable {a b : UnpackedFloat} {x y : Float}

theorem compare_toLex (i j k i' j' k' : Int) :
    compare (toLex (i, toLex (j, k))) (toLex (i', toLex (j', k'))) =
      (compare i i').then ((compare j j').then (compare k k')) := rfl

theorem compare_neg (i j : Int) : compare (-i) (-j) = (compare i j).swap := by
  rcases lt_trichotomy i j with h | rfl | h
  · rw [compare_lt_iff_lt.mpr h, compare_gt_iff_gt.mpr (neg_lt_neg h)]
    rfl
  · simp
  · rw [compare_gt_iff_gt.mpr h, compare_lt_iff_lt.mpr (neg_lt_neg h)]
    rfl

theorem compare_natCast (m n : Nat) : compare (m : Int) n = compare m n := by
  rcases lt_trichotomy m n with h | rfl | h
  · rw [compare_lt_iff_lt.mpr h, compare_lt_iff_lt.mpr (Int.ofNat_lt.mpr h)]
  · simp
  · rw [compare_gt_iff_gt.mpr h, compare_gt_iff_gt.mpr (Int.ofNat_lt.mpr h)]

/-- **Numbers compare as their places do.** -/
theorem compare_place (ha : a ≠ .notANumber) (hb : b ≠ .notANumber) :
    a.compare b = some (compare (place a) (place b)) := by
  rcases a with (_ | _) | _ | _ | ⟨_ | _, m, e, _⟩ <;>
    rcases b with (_ | _) | _ | _ | ⟨_ | _, m', e', _⟩
  -- Numbers of one sign compare by exponent and mantissa, all others by their class.
  case finite.negative.finite.negative =>
    have hplace : compare (-1 : Int) (-1) = .eq := rfl
    rw [place, place, compare_toLex, hplace, compare_neg, compare_neg, compare_natCast,
      ← Ordering.swap_then]
    rfl
  case finite.positive.finite.positive =>
    have hplace : compare (1 : Int) 1 = .eq := rfl
    rw [place, place, compare_toLex, hplace, compare_natCast]
    rfl
  all_goals
    first
    | exact absurd rfl ha
    | exact absurd rfl hb
    | rfl

theorem unpack_ne (hx : x.isNaN = false) : x.toModel.unpack ≠ .notANumber := by
  intro h
  have hnan : x.isNaN = true := by
    change x.toModel.unpack.isNaN = true
    rw [h]
    rfl
  rw [hx] at hnan
  cases hnan

theorem lt_iff_place_lt (hx : x.isNaN = false) (hy : y.isNaN = false) :
    x < y ↔ place x.toModel.unpack < place y.toModel.unpack := by
  change decide (x.toModel.unpack.lt y.toModel.unpack = true) = true ↔ _
  rw [decide_eq_true_iff, UnpackedFloat.lt, compare_place (unpack_ne hx) (unpack_ne hy),
    beq_iff_eq, Option.some.injEq, compare_lt_iff_lt]

theorem le_iff_place_le (hx : x.isNaN = false) (hy : y.isNaN = false) :
    x ≤ y ↔ place x.toModel.unpack ≤ place y.toModel.unpack := by
  change decide (x.toModel.unpack.le y.toModel.unpack = true) = true ↔ _
  rw [decide_eq_true_iff, UnpackedFloat.le, compare_place (unpack_ne hx) (unpack_ne hy),
    Option.any_some, Ordering.isLE_iff_ne_gt, ← ne_eq, compare_le_iff_le]

end Binary

/-! ### Sorting by a key -/

section Keys

variable {α κ : Type} [LinearOrder κ]

/-- **Sorted by a key.** The elements of the first list, in the order of their keys. The elements of
any one key are in the order that they had. -/
structure SortsBy (key : α → κ) (xs ys : List α) : Prop where
  perm : ys.Perm xs
  ordered : ys.Pairwise fun a b => key a ≤ key b
  stable : ∀ k, ys.filter (key · = k) = xs.filter (key · = k)

theorem sortsBy_mergeSort (key : α → κ) (xs : List α) :
    SortsBy key xs (xs.mergeSort fun a b => key a ≤ key b) := by
  have htrans (a b c : α) (hab : decide (key a ≤ key b) = true)
      (hbc : decide (key b ≤ key c) = true) : decide (key a ≤ key c) = true := by
    rw [decide_eq_true_iff] at *
    exact hab.trans hbc
  have htotal (a b : α) : (decide (key a ≤ key b) || decide (key b ≤ key a)) = true := by
    rw [Bool.or_eq_true, decide_eq_true_iff, decide_eq_true_iff]
    exact le_total _ _
  have hperm := xs.mergeSort_perm fun a b => key a ≤ key b
  refine ⟨hperm, ?_, fun k => ?_⟩
  · exact (List.pairwise_mergeSort htrans htotal xs).imp of_decide_eq_true
  · -- The elements of one key are in order already, so they are found in this order again.
    have hsame : (xs.filter (key · = k)).Pairwise fun a b => decide (key a ≤ key b) = true := by
      rw [List.pairwise_filter]
      refine List.pairwise_of_forall fun a b => ?_
      intro ha hb
      rw [decide_eq_true_iff] at *
      exact (ha.trans hb.symm).le
    have hsub := (List.sublist_mergeSort htrans htotal hsame List.filter_sublist).filter (key · = k)
    rw [List.filter_filter] at hsub
    simp only [Bool.and_self] at hsub
    exact (hsub.eq_of_length (hperm.filter _).length_eq.symm).symm

/-- A comparison that agrees with that of keys for the elements sorts as that one does. -/
theorem sortsBy_mergeSort_of_agrees {key : α → κ} {le : α → α → Bool} {xs : List α}
    (h : ∀ a ∈ xs, ∀ b ∈ xs, le a b = decide (key a ≤ key b)) :
    SortsBy key xs (xs.mergeSort le) := by
  have heq : (xs.mergeSort le).map id = (xs.map id).mergeSort fun a b => key a ≤ key b :=
    List.map_mergeSort h
  rw [List.map_id, List.map_id] at heq
  rw [heq]
  exact sortsBy_mergeSort key xs

/-- Elements that compare equal are in their old order, whatever it is that they have in common. -/
theorem SortsBy.filter_eq {key : α → κ} {xs ys : List α} (h : SortsBy key xs ys) {p : α → Bool}
    (hp : ∀ a ∈ xs, ∀ b ∈ xs, p a = true → p b = true → key a ≤ key b) :
    ys.filter p = xs.filter p := by
  by_cases hex : ∃ a ∈ xs, p a = true
  · obtain ⟨a, ha, hpa⟩ := hex
    -- What passes the test has the key of `a`, so it is among the elements of this key.
    have hkey (zs : List α) (hzs : ∀ z ∈ zs, z ∈ xs) :
        zs.filter p = (zs.filter (key · = key a)).filter p := by
      rw [List.filter_filter]
      refine List.filter_congr fun z hz => ?_
      cases hpz : p z with
      | false => rfl
      | true =>
        have hle := hp z (hzs z hz) a ha hpz hpa
        have hge := hp a ha z (hzs z hz) hpa hpz
        simp [le_antisymm hle hge]
    rw [hkey ys fun z => h.perm.mem_iff.mp, h.stable, ← hkey xs fun z => id]
  · have hnone (zs : List α) (hzs : ∀ z ∈ zs, z ∈ xs) : zs.filter p = [] :=
      List.filter_eq_nil_iff.mpr fun z hz hpz => hex ⟨z, hzs z hz, hpz⟩
    rw [hnone ys fun z => h.perm.mem_iff.mp, hnone xs fun z => id]

end Keys

/-! ### Arrays -/

namespace ArrayFn

/-- **Precedes.** The order that an array with elements `xs` is put into: by size if all of them are
numbers, by characters if all of them are texts, and by printed forms otherwise. -/
inductive Precedes (h : Heap) (xs : List Value) : Value → Value → Prop
  | numbers {x y : Float} (hall : ∀ v ∈ xs, v.number?.isSome = true) (hle : x ≤ y) :
    Precedes h xs (.number x) (.number y)
  | texts {s t : String} (hall : ∀ v ∈ xs, v.string?.isSome = true) (hle : s ≤ t) :
    Precedes h xs (.string s) (.string t)
  | printed {v w : Value} (hnumbers : ¬ ∀ v ∈ xs, v.number?.isSome = true)
    (htexts : ¬ ∀ v ∈ xs, v.string?.isSome = true) (hle : h.print v ≤ h.print w) :
    Precedes h xs v w

/-- **Sorted.** The same elements, each as often as before, in the order that the array is put into.
Elements of which each precedes the other are in the order that they had, whatever else they have in
common. -/
structure IsSorted (h : Heap) (xs ys : List Value) : Prop where
  perm : ys.Perm xs
  ordered : ys.Pairwise (Precedes h xs)
  stable : ∀ p : Value → Bool,
    (∀ v ∈ xs, ∀ w ∈ xs, p v = true → p w = true → Precedes h xs v w) →
      ys.filter p = xs.filter p

variable {h : Heap} {xs ys : List Value}

/-- Sorting by a key that orders the elements as they precede each other. -/
theorem IsSorted.of_key {κ : Type} [LinearOrder κ] {key : Value → κ} (hs : SortsBy key xs ys)
    (hkey : ∀ v ∈ xs, ∀ w ∈ xs, Precedes h xs v w ↔ key v ≤ key w) : IsSorted h xs ys where
  perm := hs.perm
  ordered := by
    refine hs.ordered.imp_of_mem fun hv hw hle => ?_
    exact (hkey _ (hs.perm.mem_iff.mp hv) _ (hs.perm.mem_iff.mp hw)).mpr hle
  stable p hp := hs.filter_eq fun v hv w hw hpv hpw => (hkey v hv w hw).mp (hp v hv w hw hpv hpw)

/-- The place of a number. -/
def placeOf (v : Value) : Int ×ₗ Int ×ₗ Int :=
  Binary.place (v.number?.elim .notANumber (·.toModel.unpack))

/-- Numbers are sorted by their places. -/
theorem isSorted_numbers (hall : ∀ v ∈ xs, v.number?.isSome = true)
    (hnan : ∀ v ∈ xs, isNaN v = false) :
    IsSorted h xs (xs.mergeSort fun a b => !lessNumber b a) := by
  have hnumber (v : Value) (hv : v ∈ xs) : ∃ x, v = .number x ∧ x.isNaN = false := by
    have hsome := hall v hv
    have hno := hnan v hv
    cases v with
    | number x => exact ⟨x, rfl, by simpa [isNaN, Value.number?] using hno⟩
    | _ => cases hsome
  -- Numbers are compared by their places among all numbers, which are linearly ordered.
  have hagrees : ∀ a ∈ xs, ∀ b ∈ xs, (!lessNumber b a) = decide (placeOf a ≤ placeOf b) := by
    intro a ha b hb
    obtain ⟨x, rfl, hx⟩ := hnumber a ha
    obtain ⟨y, rfl, hy⟩ := hnumber b hb
    rw [lessNumber, ← decide_not, decide_eq_decide, Binary.lt_iff_place_lt hy hx, not_lt]
    rfl
  refine .of_key (sortsBy_mergeSort_of_agrees hagrees) fun v hv w hw => ?_
  obtain ⟨x, rfl, hx⟩ := hnumber v hv
  obtain ⟨y, rfl, hy⟩ := hnumber w hw
  change _ ↔ Binary.place x.toModel.unpack ≤ Binary.place y.toModel.unpack
  rw [← Binary.le_iff_place_le hx hy]
  constructor
  · intro hpre
    cases hpre with
    | numbers _ hle => exact hle
    | printed hnumbers => exact absurd hall hnumbers
  · exact .numbers hall

/-- Other arrays are sorted by printed forms, and a text is its own printed form. -/
theorem isSorted_printed (hnot : ¬ ∀ v ∈ xs, v.number?.isSome = true) :
    IsSorted h xs (xs.mergeSort fun a b => h.print a ≤ h.print b) := by
  refine .of_key (sortsBy_mergeSort h.print xs) fun v hv w hw => ?_
  constructor
  · intro hpre
    cases hpre with
    | numbers hall => exact absurd hall hnot
    | texts _ hle => exact hle
    | printed _ _ hle => exact hle
  · -- Both rules say the same of texts.
    intro hle
    by_cases htexts : ∀ v ∈ xs, v.string?.isSome = true
    · have htext (u : Value) (hu : u ∈ xs) : ∃ s, u = .string s := by
        have hsome := htexts u hu
        cases u with
        | string s => exact ⟨s, rfl⟩
        | _ => cases hsome
      obtain ⟨s, rfl⟩ := htext v hv
      obtain ⟨t, rfl⟩ := htext w hw
      exact .texts htexts hle
    · exact .printed hnot htexts hle

/-- The printed forms are taken once, beside the elements. -/
theorem map_snd_mergeSort_keyed (h : Heap) (xs : List Value) :
    ((xs.map fun v => (h.print v, v)).mergeSort fun a b => !decide (b.1 < a.1)).map (·.2) =
      xs.mergeSort fun a b => h.print a ≤ h.print b := by
  have hkey (p : String × Value) (hp : p ∈ xs.map fun v => (h.print v, v)) :
      p.1 = h.print p.2 := by
    obtain ⟨v, -, rfl⟩ := List.mem_map.mp hp
    rfl
  have hmap :
      ((xs.map fun v => (h.print v, v)).mergeSort fun a b => !decide (b.1 < a.1)).map (·.2) =
        ((xs.map fun v => (h.print v, v)).map (·.2)).mergeSort
          fun a b => h.print a ≤ h.print b := by
    refine List.map_mergeSort fun p hp q hq => ?_
    rw [← decide_not, decide_eq_decide, not_lt, hkey p hp, hkey q hq]
  rw [hmap, List.map_map]
  exact congrArg (List.mergeSort · fun a b => h.print a ≤ h.print b) (List.map_id xs)

/-- **Sorting a list.** It succeeds unless it is about numbers with a not-a-number among them. -/
theorem sorted_spec (hnan : (∀ v ∈ xs, v.number?.isSome = true) → ∀ v ∈ xs, isNaN v = false) :
    ∃ ys, sorted h xs = some ys ∧ IsSorted h xs ys := by
  unfold sorted
  by_cases hall : ∀ v ∈ xs, v.number?.isSome = true
  · have hno : xs.any isNaN = false := List.any_eq_false.mpr fun v hv => by
      simp [hnan hall v hv]
    rw [if_pos (List.all_eq_true.mpr hall), if_neg (by simp [hno])]
    exact ⟨_, rfl, isSorted_numbers hall (hnan hall)⟩
  · rw [if_neg (mt List.all_eq_true.mp hall)]
    refine ⟨_, congrArg some (map_snd_mergeSort_keyed h xs), isSorted_printed hall⟩

end ArrayFn

/-- **Arrays are sorted stably.** Sorting an array gives a new one and changes none, the sorted one
included. The new array has the same elements, references included, in the order that the array is
put into, and elements that compare equal are in their old order. Only arrays of numbers with a
not-a-number among them are left out. -/
theorem arrays_sort_stably (ev : Evaluator) (r : Ref) (loc : Location) (m : Machine)
    (hnan : (∀ v ∈ (m.heap.array r).toList, v.number?.isSome = true) →
      ∀ v ∈ (m.heap.array r).toList, ArrayFn.isNaN v = false) :
    ∃ s m', (Builtin.array .sort).call ev [.array r] loc m = .ok (.array s) m' ∧
      m.heap.New m'.heap (.array s) ∧ m.heap.Grows m'.heap ∧
      m'.heap.array r = m.heap.array r ∧
      ArrayFn.IsSorted m.heap (m.heap.array r).toList (m'.heap.array s).toList := by
  obtain ⟨ys, hys, hsorted⟩ := ArrayFn.sorted_spec (h := m.heap) hnan
  have hcall : (Builtin.array .sort).call ev [.array r] loc m = Eval.newList ys m := by
    have hitems : ArrayFn.items "sort" [.array r] 1 loc m = .ok (m.heap.array r) m := rfl
    have hlook : Eval.lookHeap (fun h => ArrayFn.sorted h (m.heap.array r).toList) m =
        .ok (some ys) m := by
      rw [← hys]
      rfl
    rw [Builtin.call_of_accepts rfl]
    exact (Eval.bind_of_ok hitems).trans (Eval.bind_of_ok hlook)
  have hfresh := m.heap.array_allocArray ys.toArray
  refine ⟨m.heap.arrays.size, { m with heap := (m.heap.allocArray ys.toArray).2 }, hcall,
    m.heap.new_allocArray _, m.heap.grows_allocArray _, ?_, ?_⟩
  · by_cases hr : r = m.heap.arrays.size
    · -- No array is at the next place, so nothing is sorted into it.
      have hnone : m.heap.array r = #[] := by
        simp [Heap.array, hr]
      have hempty : ys = [] := by
        have hperm := hsorted.perm
        rw [hnone] at hperm
        exact hperm.eq_nil
      rw [hempty, hnone, hr]
      exact m.heap.array_allocArray _
    · simp [Heap.array, Heap.allocArray, Array.getElem?_push, hr]
  · change ArrayFn.IsSorted m.heap _ ((m.heap.allocArray ys.toArray).2.array _).toList
    rwa [hfresh]

/-- Numbers, both zeros among them. None of these is not-a-number. -/
theorem arrays_sort_stably_zeros :
    let m : Machine := { heap := { arrays := #[#[.number 1, .number 0, .number (-0.0)]] } }
    ((∀ v ∈ (m.heap.array 0).toList, v.number?.isSome = true) →
      ∀ v ∈ (m.heap.array 0).toList, ArrayFn.isNaN v = false) ∧
    ∃ s m', (Builtin.array .sort).call (.ofBound 0) [.array 0] default m = .ok (.array s) m' ∧
      m.heap.New m'.heap (.array s) ∧ m.heap.Grows m'.heap ∧
      m'.heap.array 0 = m.heap.array 0 ∧
      ArrayFn.IsSorted m.heap (m.heap.array 0).toList (m'.heap.array s).toList := by
  intro m
  have hnan : ∀ v ∈ (m.heap.array 0).toList, ArrayFn.isNaN v = false := by decide
  exact ⟨fun _ => hnan, arrays_sort_stably (.ofBound 0) 0 default m fun _ => hnan⟩

end ScriptLang
