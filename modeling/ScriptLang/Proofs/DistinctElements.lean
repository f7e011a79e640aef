import Mathlib.Data.List.Induction
import ScriptLang.Proofs.SparedContainers

/-!
# Arrays as sets

A program may use arrays as sets: it drops repetitions, unites two arrays, and takes apart what two
arrays share. All of this goes by one notion of equal elements, the equality of the language with
not-a-number equal to itself. It is no equality of contents: two containers are two elements, even
if they hold the same.

* `ArrayFn.elementsAt` are the elements at chosen positions, in order. A part of an array is told by
  its positions here, since an array may have an element twice.
* `ArrayFn.KeepsFirst` is the rule for dropping repetitions: a position is kept unless its element
  is found at an earlier one that is kept. The rule decides the positions one after the other, so
  there is one way to follow it. `ArrayFn.firstPlaces` are these positions.
* The library instead gathers the elements that it keeps. What is gathered from the first positions
  is what they keep (`ArrayFn.firstOccurrences_eq`), and in it no element is found again
  (`ArrayFn.pairwise_firstOccurrences`). So nothing is dropped the second time.
* `arrays_serve_as_sets` is the main statement.
-/

namespace ScriptLang

namespace ArrayFn

variable {xs : List Value} {v : Value} {places : Nat → Bool} {i j : Nat}

/-! ### Elements at positions -/

/-- **Elements at positions.** The elements of a list at some of its positions, in order. -/
def elementsAt (places : Nat → Bool) (xs : List Value) : List Value :=
  (xs.zipIdx.filter fun p => places p.2).map (·.1)

theorem mem_elementsAt : v ∈ elementsAt places xs ↔ ∃ i, xs[i]? = some v ∧ places i = true := by
  unfold elementsAt
  rw [List.mem_map]
  constructor
  · rintro ⟨⟨w, i⟩, hp, rfl⟩
    obtain ⟨hw, hi⟩ := List.mem_filter.mp hp
    exact ⟨i, List.mem_zipIdx_iff_getElem?.mp hw, hi⟩
  · rintro ⟨i, hv, hi⟩
    exact ⟨(v, i), List.mem_filter.mpr ⟨List.mem_zipIdx_iff_getElem?.mpr hv, hi⟩, rfl⟩

theorem elementsAt_concat (places : Nat → Bool) (xs : List Value) (v : Value) :
    elementsAt places (xs ++ [v]) =
      elementsAt places xs ++ if places xs.length then [v] else [] := by
  unfold elementsAt
  rw [List.zipIdx_append, List.filter_append, List.map_append]
  cases hv : places xs.length <;> simp [hv]

/-- What is chosen after the end of a list does not matter. -/
theorem elementsAt_congr {others : Nat → Bool} (h : ∀ i < xs.length, places i = others i) :
    elementsAt places xs = elementsAt others xs := by
  unfold elementsAt
  rw [List.filter_congr]
  rintro ⟨w, i⟩ hp
  have hw := List.mem_zipIdx_iff_getElem?.mp hp
  exact h i (List.getElem?_eq_some_iff.mp hw).1

/-- A filter chooses the positions at which its test holds. -/
theorem filter_eq_elementsAt (test : Value → Bool)
    (h : ∀ i v, xs[i]? = some v → places i = test v) :
    xs.filter test = elementsAt places xs := by
  have hzip : xs.zipIdx.filter (fun p => places p.2) = xs.zipIdx.filter (test ∘ Prod.fst) := by
    refine List.filter_congr ?_
    rintro ⟨w, i⟩ hp
    exact h i w (List.mem_zipIdx_iff_getElem?.mp hp)
  rw [elementsAt, hzip, ← List.filter_map, List.zipIdx_map_fst]

/-! ### First occurrences -/

/-- **Keeps first.** A position is kept unless its element is found at an earlier one that is
kept. -/
def KeepsFirst (xs : List Value) (kept : Nat → Bool) : Prop :=
  ∀ i v, xs[i]? = some v →
    (kept i = true ↔ ∀ j w, j < i → kept j = true → xs[j]? = some w → w.sameOrNaN v = false)

theorem firstOccurrences_concat (xs : List Value) (v : Value) :
    firstOccurrences (xs ++ [v]) =
      if has (firstOccurrences xs) v then firstOccurrences xs else firstOccurrences xs ++ [v] := by
  unfold firstOccurrences has
  rw [List.foldl_append, List.foldl_cons, List.foldl_nil, Array.any_toList]
  split
  · rfl
  · rw [Array.toList_push]

theorem has_eq_false : has xs v = false ↔ ∀ w ∈ xs, w.sameOrNaN v = false := by
  rw [has, List.any_eq_false]
  exact forall₂_congr fun w _ => iff_of_eq (Bool.not_eq_true _)

/-- The positions whose elements are not found among what is gathered before them. -/
def firstPlaces (xs : List Value) (i : Nat) : Bool :=
  xs[i]?.any fun v => !has (firstOccurrences (xs.take i)) v

theorem firstPlaces_eq (hv : xs[i]? = some v) :
    firstPlaces xs i = !has (firstOccurrences (xs.take i)) v := by
  rw [firstPlaces, hv, Option.any_some]

/-- Whether a position is one of them depends on what stands up to it. -/
theorem firstPlaces_take (hj : j < i) : firstPlaces (xs.take i) j = firstPlaces xs j := by
  unfold firstPlaces
  rw [List.getElem?_take_of_lt hj, List.take_take, Nat.min_eq_left (Nat.le_of_lt hj)]

/-- **What is gathered** are the elements at these positions. By induction on the end of the list,
which is where the library adds to what it has. -/
theorem firstOccurrences_eq (xs : List Value) :
    firstOccurrences xs = elementsAt (firstPlaces xs) xs := by
  induction xs using List.reverseRecOn with
  | nil => rfl
  | append_singleton xs v ih =>
    have hbefore : elementsAt (firstPlaces (xs ++ [v])) xs = elementsAt (firstPlaces xs) xs := by
      refine elementsAt_congr fun i hi => ?_
      rw [← firstPlaces_take hi, List.take_left]
    have hlast : firstPlaces (xs ++ [v]) xs.length = !has (firstOccurrences xs) v := by
      rw [firstPlaces_eq List.getElem?_concat_length, List.take_left]
    rw [firstOccurrences_concat, elementsAt_concat, hbefore, ← ih, hlast]
    cases has (firstOccurrences xs) v <;> simp

theorem keepsFirst_firstPlaces (xs : List Value) : KeepsFirst xs (firstPlaces xs) := by
  intro i v hv
  rw [firstPlaces_eq hv, Bool.not_eq_true', has_eq_false, firstOccurrences_eq]
  constructor
  · intro h j w hj hkept hw
    refine h w (mem_elementsAt.mpr ⟨j, ?_, ?_⟩)
    · rwa [List.getElem?_take_of_lt hj]
    · rwa [firstPlaces_take hj]
  · intro h w hw
    obtain ⟨j, hw, hkept⟩ := mem_elementsAt.mp hw
    have hj : j < i := by
      have hlt := (List.getElem?_eq_some_iff.mp hw).1
      rw [List.length_take] at hlt
      omega
    rw [List.getElem?_take_of_lt hj] at hw
    rw [firstPlaces_take hj] at hkept
    exact h j w hj hkept hw

/-- No element is found again. -/
theorem pairwise_firstOccurrences (xs : List Value) :
    (firstOccurrences xs).Pairwise fun v w => v.sameOrNaN w = false := by
  induction xs using List.reverseRecOn with
  | nil => exact .nil
  | append_singleton xs v ih =>
    rw [firstOccurrences_concat]
    cases hv : has (firstOccurrences xs) v with
    | true => exact ih
    | false =>
      refine List.pairwise_append.mpr ⟨ih, List.pairwise_singleton _ _, fun u hu w hw => ?_⟩
      rw [List.mem_singleton.mp hw]
      exact has_eq_false.mp hv u hu

/-- Where no element is found again, none is dropped. -/
theorem firstOccurrences_of_pairwise (h : xs.Pairwise fun v w => v.sameOrNaN w = false) :
    firstOccurrences xs = xs := by
  induction xs using List.reverseRecOn with
  | nil => rfl
  | append_singleton xs v ih =>
    obtain ⟨hxs, -, hv⟩ := List.pairwise_append.mp h
    have hnew : has xs v = false :=
      has_eq_false.mpr fun w hw => hv w hw v (List.mem_singleton_self v)
    rw [firstOccurrences_concat, ih hxs, hnew]
    rfl

/-! ### The functions -/

section Calls

variable (ev : Evaluator) (a b : Ref) (loc : Location) (m : Machine)

theorem call_unique : (Builtin.array .unique).call ev [.array a] loc m =
    Eval.newList (firstOccurrences (m.heap.array a).toList) m := by
  rw [Builtin.call_of_accepts rfl]
  rfl

theorem call_concat : (Builtin.array .concat).call ev [.array a, .array b] loc m =
    Eval.newList ((m.heap.array a).toList ++ (m.heap.array b).toList) m := by
  rw [Builtin.call_of_accepts rfl]
  change Eval.newArray (#[] ++ m.heap.array a ++ m.heap.array b) m = _
  rw [Array.empty_append, Eval.newList, ← Array.toList_append]

theorem call_union : (Builtin.array .unionOf).call ev [.array a, .array b] loc m =
    Eval.newList (firstOccurrences ((m.heap.array a).toList ++ (m.heap.array b).toList)) m := by
  rw [Builtin.call_of_accepts rfl]
  rfl

theorem call_includes (v : Value) : (Builtin.array .includes).call ev [.array b, v] loc m =
    .ok (.bool (has (m.heap.array b).toList v)) m := by
  rw [Builtin.call_of_accepts rfl]
  rfl

theorem call_intersection : (Builtin.array .intersection).call ev [.array a, .array b] loc m =
    Eval.newList ((m.heap.array a).toList.filter (has (m.heap.array b).toList)) m := by
  rw [Builtin.call_of_accepts rfl]
  rfl

theorem call_difference : (Builtin.array .difference).call ev [.array a, .array b] loc m =
    Eval.newList ((m.heap.array a).toList.filter fun v => !has (m.heap.array b).toList v) m := by
  rw [Builtin.call_of_accepts rfl]
  rfl

end Calls

end ArrayFn

open ArrayFn

/-- **Arrays serve as sets.** Of an array, `unique` keeps the elements at the positions that the
rule keeps, so that none is found again, and keeps all of them the second time. Both arrays one
after the other, without repetitions, are what `union` gives. The positions of the first array at
which `includes` finds the element in the second one are those of `intersection`, and all others are
those of `difference`; no element moves, and repetitions stay. -/
theorem arrays_serve_as_sets (ev : Evaluator) (a b : Ref) (loc : Location) (m : Machine) :
    let call (f : ArrayFn) (args : List Value) := (Builtin.array f).call ev args loc
    let xs := (m.heap.array a).toList
    (∃ kept, KeepsFirst xs kept ∧
      (elementsAt kept xs).Pairwise (fun v w => v.sameOrNaN w = false) ∧
      (call .unique [.array a]).Creates m (Heap.IsArray (elementsAt kept xs)) ∧
      (call .unique [.array a] >>= fun u => call .unique [u]).Creates m
        (Heap.IsArray (elementsAt kept xs))) ∧
    (∃ zs, (call .unionOf [.array a, .array b]).Creates m (Heap.IsArray zs) ∧
      (call .concat [.array a, .array b] >>= fun c => call .unique [c]).Creates m
        (Heap.IsArray zs)) ∧
    ∃ shared, (∀ i v, xs[i]? = some v →
        call .includes [.array b, v] m = .ok (.bool (shared i)) m) ∧
      (call .intersection [.array a, .array b]).Creates m
        (Heap.IsArray (elementsAt shared xs)) ∧
      (call .difference [.array a, .array b]).Creates m
        (Heap.IsArray (elementsAt (fun i => !shared i) xs)) := by
  intro call xs
  have hunique (m : Machine) (r : Ref) : (call .unique [.array r]).Creates m
      (Heap.IsArray (firstOccurrences (m.heap.array r).toList)) :=
    .of_eq (.of_newList _ m) (call_unique ev r loc m)
  refine ⟨⟨firstPlaces xs, keepsFirst_firstPlaces xs, ?distinct⟩, ?united, ?shared⟩
  case distinct =>
    rw [← firstOccurrences_eq]
    have hdistinct := pairwise_firstOccurrences xs
    refine ⟨hdistinct, hunique m a, (hunique m a).bind ?_⟩
    rintro _ m' - ⟨r, rfl, hr⟩
    have hagain := hunique m' r
    rwa [hr, firstOccurrences_of_pairwise hdistinct] at hagain
  case united =>
    refine ⟨_, .of_eq (.of_newList _ m) (call_union ev a b loc m), ?_⟩
    refine Eval.Creates.bind (.of_eq (.of_newList _ m) (call_concat ev a b loc m)) ?_
    rintro _ m' - ⟨r, rfl, hr⟩
    have hfirst := hunique m' r
    rwa [hr] at hfirst
  case shared =>
    -- The test of a position is that of its element.
    let shared (i : Nat) : Bool := xs[i]?.any (has (m.heap.array b).toList)
    have hshared (i : Nat) (v : Value) (hv : xs[i]? = some v) :
        shared i = has (m.heap.array b).toList v := by
      simp only [shared, hv, Option.any_some]
    refine ⟨shared, fun i v hv => ?_, ?_, ?_⟩
    · rw [hshared i v hv]
      exact call_includes ev b loc m v
    · rw [← filter_eq_elementsAt _ hshared]
      exact .of_eq (.of_newList _ m) (call_intersection ev a b loc m)
    · have hothers : ∀ i v, xs[i]? = some v →
          (!shared i) = !has (m.heap.array b).toList v := fun i v hv => by rw [hshared i v hv]
      rw [← filter_eq_elementsAt _ hothers]
      exact .of_eq (.of_newList _ m) (call_difference ev a b loc m)

end ScriptLang
