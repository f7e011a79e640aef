import ScriptLang.Eval.Run
import ScriptLang.Proofs.WholeNumbers

/-!
# Substring search

A text may stand in another at several places, which may overlap and touch its ends, or at none.
What a search finds is told by the set of these places.

* `StringFn.OccursAt` says where a text stands in another. `StringFn.Found` says that a search finds
  the best member of a set of indices, or nothing if there is none.
* Upwards, a search finds the least index from one on (`StringFn.found_indexFrom`); downwards, it
  finds the greatest one up to another (`StringFn.found_lastIndexUpTo`).
* A search takes the rest of the text from each index on that it looks at. `StringFn.scan?` is this
  search with a test that there is such a rest, over the range of indices that a search looks at.
  The tests do not fail and do not change what is found (`StringFn.indexScan?_eq`,
  `StringFn.lastIndexScan?_eq`).
* To look whether a text begins with another at an index is to look whether it is first found there
  (`StringFn.isPrefixOf_drop_iff`).
* An index is given as a number. Below `2 ^ 53`, it is told from all other indices and from -1
  (`StringFn.same_ofNat`, `StringFn.same_neg_one`). `substring_search_is_exact` is the main
  statement.
-/

namespace ScriptLang

namespace StringFn

variable {hay needle : List Char} {start last i n : Nat} {S : Set Nat} {r r' : Option Nat}
  {best : Set Nat → Nat → Prop} {p : Nat → Bool}

/-! ### Occurrences -/

/-- **Occurrence.** A text stands at an index of another: so many characters come before it. -/
def OccursAt (needle hay : List Char) (i : Nat) : Prop :=
  ∃ before after, before ++ needle ++ after = hay ∧ before.length = i

/-- An occurrence ends within the text. -/
theorem OccursAt.add_length_le (h : OccursAt needle hay i) : i + needle.length ≤ hay.length := by
  obtain ⟨before, after, rfl, rfl⟩ := h
  rw [List.length_append, List.length_append]
  exact Nat.le_add_right _ _

/-- The test for an occurrence: what follows the index begins with the text. -/
def standsAt (needle hay : List Char) (i : Nat) : Bool := needle.isPrefixOf (hay.drop i)

theorem occursAt_iff (hneedle : needle ≠ []) :
    OccursAt needle hay i ↔ standsAt needle hay i = true := by
  rw [standsAt, List.isPrefixOf_iff_prefix]
  constructor
  · rintro ⟨before, after, rfl, rfl⟩
    rw [List.append_assoc, List.drop_left]
    exact List.prefix_append needle after
  · rintro ⟨after, hafter⟩
    -- Past the end nothing is left, so only the empty text would stand there.
    have hi : i ≤ hay.length := by
      by_contra hlt
      rw [List.drop_of_length_le (by omega)] at hafter
      exact hneedle (List.append_eq_nil_iff.mp hafter).1
    refine ⟨hay.take i, after, ?_, List.length_take_of_le hi⟩
    rw [List.append_assoc, hafter, List.take_append_drop]

/-- **Found.** What a search for the best member of a set gives: the best member, or nothing if the
set is empty. -/
def Found (best : Set Nat → Nat → Prop) (S : Set Nat) : Option Nat → Prop
  | some i => best S i
  | none => S = ∅

theorem Found.eq (h : Found IsLeast S r) (h' : Found IsLeast S r') : r = r' := by
  cases r with
  | none =>
    cases r' with
    | none => rfl
    | some j => exact absurd (h ▸ h'.1) (Set.notMem_empty j)
  | some i =>
    cases r' with
    | none => exact absurd (h' ▸ h.1) (Set.notMem_empty i)
    | some j => exact congrArg some (h.unique h')

/-- Looking at indices upwards finds the least one. -/
theorem found_find?_range' (hend : ∀ i, p i = true → i < start + n) :
    Found IsLeast {i | start ≤ i ∧ p i = true} ((List.range' start n).find? p) := by
  cases h : (List.range' start n).find? p with
  | none =>
    rw [List.find?_range'_eq_none] at h
    refine Set.eq_empty_of_forall_notMem fun i hi => ?_
    have hnot := h i hi.1 (hend i hi.2)
    rw [hi.2] at hnot
    cases hnot
  | some i =>
    rw [List.find?_range'_eq_some] at h
    obtain ⟨hi, hmem, hbefore⟩ := h
    refine ⟨⟨(List.mem_range'_1.mp hmem).1, hi⟩, fun j hj => ?_⟩
    by_contra hlt
    have hnot := hbefore j hj.1 (Nat.not_le.mp hlt)
    rw [hj.2] at hnot
    cases hnot

/-- Looking at indices downwards finds the greatest one. -/
theorem found_find?_reverse_range (p : Nat → Bool) (n : Nat) :
    Found IsGreatest {i | i < n ∧ p i = true} ((List.range n).reverse.find? p) := by
  induction n with
  | zero => exact Set.eq_empty_of_forall_notMem fun i hi => Nat.not_lt_zero i hi.1
  | succ n ih =>
    rw [List.range_succ, List.reverse_append, List.reverse_singleton, List.singleton_append]
    cases hn : p n with
    | true =>
      rw [List.find?_cons_of_pos hn]
      exact ⟨⟨Nat.lt_succ_self n, hn⟩, fun i hi => Nat.le_of_lt_succ hi.1⟩
    | false =>
      have hset : {i | i < n + 1 ∧ p i = true} = {i | i < n ∧ p i = true} := by
        ext i
        refine ⟨fun ⟨hlt, hi⟩ => ⟨?_, hi⟩, fun ⟨hlt, hi⟩ => ⟨hlt.trans (Nat.lt_succ_self n), hi⟩⟩
        refine Nat.lt_of_le_of_ne (Nat.le_of_lt_succ hlt) ?_
        rintro rfl
        rw [hi] at hn
        cases hn
      rwa [List.find?_cons_of_neg (by simp [hn]), hset]

/-! ### Searches as scans -/

/-- The rest of a text from an index on, if the index is not past the end. -/
def tail? (hay : List Char) (i : Nat) : Option (List Char) :=
  if i ≤ hay.length then some (hay.drop i) else none

/-- **Scan.** The first of some indices at which a text stands. There is no answer if one of the
indices is past the end. -/
def scan? (hay needle : List Char) : List Nat → Option (Option Nat)
  | [] => some none
  | i :: is => do
    let rest ← tail? hay i
    if needle.isPrefixOf rest then return some i else scan? hay needle is

/-- The first index of a text in another from an index on, looked for with `tail?`. -/
def indexScan? (hay needle : List Char) (start : Nat) : Option (Option Nat) :=
  if needle.isEmpty then some (some (min start hay.length))
  else if hay.length < needle.length then some none
  else scan? hay needle (List.range' start (hay.length - needle.length + 1 - start))

/-- The last index of a text in another up to an index, looked for with `tail?`. -/
def lastIndexScan? (hay needle : List Char) (last : Nat) : Option (Option Nat) :=
  if hay.length < needle.length then some none
  else scan? hay needle (List.range (min (hay.length - needle.length) last + 1)).reverse

/-- Whether a text stands at an index of another, looked at with `tail?`. -/
def startsScan? (hay needle : List Char) (start : Nat) : Option Bool :=
  (tail? hay (min start hay.length)).map needle.isPrefixOf

theorem tail?_eq_some (hi : i ≤ hay.length) : tail? hay i = some (hay.drop i) := if_pos hi

theorem scan?_eq_some {is : List Nat} (his : ∀ i ∈ is, i ≤ hay.length) :
    scan? hay needle is = some (is.find? (standsAt needle hay)) := by
  induction is with
  | nil => rfl
  | cons i is ih =>
    rw [List.forall_mem_cons] at his
    rw [scan?, tail?_eq_some his.1, Option.bind_eq_bind, Option.bind_some, ← standsAt, ih his.2,
      List.find?_cons]
    cases standsAt needle hay i <;> rfl

/-- By induction on how much of the text is left. -/
theorem searchFrom_eq_find? (hneedle : needle ≠ []) (start : Nat) :
    searchFrom needle start (hay.drop start) =
      (List.range' start (hay.length - start)).find? (standsAt needle hay) := by
  induction hn : hay.length - start generalizing start with
  | zero =>
    have hempty : needle.isEmpty = false := by simpa using hneedle
    rw [List.drop_of_length_le (by omega), searchFrom, hempty, if_neg Bool.false_ne_true]
    rfl
  | succ n ih =>
    have hlt : start < hay.length := by omega
    rw [List.range'_succ, List.drop_eq_getElem_cons hlt, searchFrom, ih (start + 1) (by omega),
      ← List.drop_eq_getElem_cons hlt, ← standsAt, List.find?_cons]
    cases standsAt needle hay start <;> rfl

theorem lastIndexBelow_eq_find? (n : Nat) : lastIndexBelow hay needle n =
    (List.range n).reverse.find? (standsAt needle hay) := by
  induction n with
  | zero => rfl
  | succ n ih =>
    rw [List.range_succ, List.reverse_append, List.reverse_singleton, List.singleton_append,
      lastIndexBelow, ← standsAt, ih, List.find?_cons]
    cases standsAt needle hay n <;> rfl

/-! ### The searches -/

theorem indexFrom_nil (hay : List Char) (start : Nat) :
    indexFrom hay [] start = some (min start hay.length) := rfl

theorem lastIndexUpTo_nil (hay : List Char) (last : Nat) :
    lastIndexUpTo hay [] last = some (min last hay.length) := by
  rw [lastIndexUpTo, List.length_nil, if_neg (Nat.not_lt_zero _), Nat.sub_zero, lastIndexBelow,
    Nat.min_comm]
  rfl

theorem indexFrom_of_ne_nil (hneedle : needle ≠ []) (start : Nat) : indexFrom hay needle start =
    (List.range' start (hay.length - start)).find? (standsAt needle hay) := by
  have hempty : needle.isEmpty = false := by simpa using hneedle
  rw [indexFrom, hempty, if_neg Bool.false_ne_true, searchFrom_eq_find? hneedle]

/-- Searching for the first occurrence finds it. -/
theorem found_indexFrom (hneedle : needle ≠ []) (hay : List Char) (start : Nat) :
    Found IsLeast {i | start ≤ i ∧ OccursAt needle hay i} (indexFrom hay needle start) := by
  have hpos := List.length_pos_of_ne_nil hneedle
  simp only [occursAt_iff hneedle]
  rw [indexFrom_of_ne_nil hneedle]
  refine found_find?_range' fun i hi => ?_
  have hend := ((occursAt_iff hneedle).mpr hi).add_length_le
  omega

/-- Searching for the last occurrence finds it. -/
theorem found_lastIndexUpTo (hneedle : needle ≠ []) (hay : List Char) (last : Nat) :
    Found IsGreatest {i | i ≤ last ∧ OccursAt needle hay i} (lastIndexUpTo hay needle last) := by
  rw [lastIndexUpTo]
  split
  case isTrue hshort =>
    -- What is longer than the text occurs nowhere in it.
    refine Set.eq_empty_of_forall_notMem fun i hi => ?_
    have hend := hi.2.add_length_le
    omega
  case isFalse hlong =>
    have hset : {i | i ≤ last ∧ OccursAt needle hay i} =
        {i | i < min (hay.length - needle.length) last + 1 ∧ standsAt needle hay i = true} := by
      ext i
      rw [Set.mem_ofPred_eq, Set.mem_ofPred_eq, ← occursAt_iff hneedle]
      refine and_congr_left fun hi => ?_
      have hend := hi.add_length_le
      omega
    rw [hset, lastIndexBelow_eq_find?]
    exact found_find?_reverse_range _ _

/-- The search for the first occurrence stays within the text. -/
theorem indexScan?_eq (hay needle : List Char) (start : Nat) :
    indexScan? hay needle start = some (indexFrom hay needle start) := by
  by_cases hneedle : needle = []
  · subst hneedle
    rfl
  · have hempty : needle.isEmpty = false := by simpa using hneedle
    have hfound := found_indexFrom hneedle hay start
    rw [indexScan?, hempty, if_neg Bool.false_ne_true]
    split
    case isTrue hshort =>
      have hnone : Found IsLeast {i | start ≤ i ∧ OccursAt needle hay i} none := by
        refine Set.eq_empty_of_forall_notMem fun i hi => ?_
        have hend := hi.2.add_length_le
        omega
      rw [hfound.eq hnone]
    case isFalse hlong =>
      have hwithin : ∀ i ∈ List.range' start (hay.length - needle.length + 1 - start),
          i ≤ hay.length := by
        intro i hi
        rw [List.mem_range'_1] at hi
        omega
      -- Fewer indices are looked at than in the search itself, but the least one is the same.
      rw [scan?_eq_some hwithin]
      refine congrArg some (Found.eq (found_find?_range' fun i hi => ?_) ?_)
      · have hend := ((occursAt_iff hneedle).mpr hi).add_length_le
        omega
      · simpa only [occursAt_iff hneedle] using hfound

/-- The search for the last occurrence stays within the text. -/
theorem lastIndexScan?_eq (hay needle : List Char) (last : Nat) :
    lastIndexScan? hay needle last = some (lastIndexUpTo hay needle last) := by
  rw [lastIndexScan?, lastIndexUpTo]
  split
  case isTrue hshort => rfl
  case isFalse hlong =>
    rw [lastIndexBelow_eq_find?]
    refine scan?_eq_some fun i hi => ?_
    rw [List.mem_reverse, List.mem_range] at hi
    omega

/-- The test at the beginning stays within the text. -/
theorem startsScan?_eq (hay needle : List Char) (start : Nat) :
    startsScan? hay needle start = some (needle.isPrefixOf (hay.drop start)) := by
  rw [startsScan?, tail?_eq_some (Nat.min_le_right _ _), Option.map_some]
  rcases Nat.le_total start hay.length with hle | hle
  · rw [Nat.min_eq_left hle]
  · rw [Nat.min_eq_right hle, List.drop_length, List.drop_of_length_le hle]

/-- A text begins with another at an index exactly if it is first found there. -/
theorem isPrefixOf_drop_iff (hstart : start ≤ hay.length) :
    needle.isPrefixOf (hay.drop start) = true ↔ indexFrom hay needle start = some start := by
  by_cases hneedle : needle = []
  · subst hneedle
    rw [indexFrom_nil, Nat.min_eq_left hstart]
    simp
  · have hfound := found_indexFrom hneedle hay start
    rw [← standsAt, ← occursAt_iff hneedle]
    constructor
    · intro hoccurs
      have hleast : IsLeast {i | start ≤ i ∧ OccursAt needle hay i} start :=
        ⟨⟨Nat.le_refl start, hoccurs⟩, fun i hi => hi.1⟩
      exact hfound.eq hleast
    · intro h
      rw [h] at hfound
      exact hfound.1.2

/-! ### Indices as values -/

theorem same_neg_one (r : Option Nat) :
    (indexOrMinusOne r).same (.number (-1)) = !r.isSome := by
  cases r with
  | none => decide
  | some i => exact Binary.ofNat_beq_neg_one i

theorem same_ofNat {p : Nat} (hp : p < 2 ^ 53) (r : Option Nat) :
    (indexOrMinusOne r).same (.ofNat p) = true ↔ r = some p := by
  cases r with
  | none =>
    have hne : ((-1 : Float) == Binary.ofNat p) = false := Binary.neg_one_beq_ofNat p
    simp [indexOrMinusOne, Value.ofNat, Value.same, hne]
  | some i =>
    rw [Option.some_inj]
    exact Binary.ofNat_beq_ofNat hp

/-! ### Calls -/

section Calls

variable (ev : Evaluator) (loc : Location) (m : Machine) (s x : String) (position : Float)

theorem call_indexOf :
    (Builtin.string .indexOf).call ev [.string s, .string x, .number position] loc m =
      .ok (indexOrMinusOne (indexFrom s.toList x.toList (Binary.cutToCount position))) m := by
  rw [Builtin.call_of_accepts rfl]
  rfl

theorem call_contains (hx : x ≠ "") :
    (Builtin.string .contains).call ev [.string s, .string x, .number position] loc m =
      .ok (.bool (indexFrom s.toList x.toList (Binary.cutToCount position)).isSome) m := by
  have hempty : x.toList.isEmpty = false := by simpa using hx
  rw [Builtin.call_of_accepts rfl]
  change (if x.toList.isEmpty = true then _ else _ : Eval Value) m = _
  rw [hempty, if_neg Bool.false_ne_true]
  rfl

theorem call_startsWith :
    (Builtin.string .startsWith).call ev [.string s, .string x, .number position] loc m =
      .ok (.bool (x.toList.isPrefixOf (s.toList.drop (Binary.cutToCount position)))) m := by
  rw [Builtin.call_of_accepts rfl]
  rfl

end Calls

end StringFn

open StringFn

/-- **Substring search is exact.** Searching a text for another finds the first occurrence from an
index on, or the last one up to an index, if there is any; the empty text is found at the index
itself, or at the end. No search looks past the end. So, at a number that is cut to the index,
`contains` tells whether `index_of` gives other than -1, and `starts_with` whether it gives the
index. An index below `2 ^ 53` is exact as a number: no other index and not -1 equals it. -/
theorem substring_search_is_exact (ev : Evaluator) (loc : Location) (m : Machine) (s x : String)
    (p : Nat) :
    let hay := s.toList
    let needle := x.toList
    let found := indexFrom hay needle p
    let call (f : StringFn) (position : Float) :=
      (Builtin.string f).call ev [.string s, .string x, .number position] loc m
    (if x = "" then
        found = some (min p s.length) ∧ lastIndexUpTo hay needle p = some (min p s.length)
      else
        Found IsLeast {i | p ≤ i ∧ OccursAt needle hay i} found ∧
          Found IsGreatest {i | i ≤ p ∧ OccursAt needle hay i} (lastIndexUpTo hay needle p)) ∧
      (indexScan? hay needle p = some found ∧
        lastIndexScan? hay needle p = some (lastIndexUpTo hay needle p) ∧
        startsScan? hay needle p = some (needle.isPrefixOf (hay.drop p))) ∧
      (∀ position, Binary.cutToCount position = p →
        call .indexOf position = .ok (indexOrMinusOne found) m ∧
          (x ≠ "" → call .contains position =
            .ok (.bool !(indexOrMinusOne found).same (.number (-1))) m) ∧
          (p ≤ s.length → call .startsWith position = .ok (.bool (found = some p)) m)) ∧
      (p < 2 ^ 53 → Binary.cutToCount (Binary.ofNat p) = p ∧
        ((indexOrMinusOne found).same (.ofNat p) = true ↔ found = some p)) := by
  intro hay needle found call
  refine ⟨?exact, ⟨indexScan?_eq _ _ _, lastIndexScan?_eq _ _ _, startsScan?_eq _ _ _⟩, ?calls,
    fun hp => ⟨Binary.cutToCount_ofNat hp, same_ofNat hp found⟩⟩
  case exact =>
    split
    case isTrue hx =>
      subst hx
      exact ⟨indexFrom_nil _ _, lastIndexUpTo_nil _ _⟩
    case isFalse hx =>
      have hneedle : needle ≠ [] := by simpa [needle] using hx
      exact ⟨found_indexFrom hneedle _ _, found_lastIndexUpTo hneedle _ _⟩
  case calls =>
    rintro position rfl
    refine ⟨call_indexOf ev loc m s x position, fun hx => ?contains, fun hp => ?startsWith⟩
    case contains =>
      rw [same_neg_one, Bool.not_not]
      exact call_contains ev loc m s x position hx
    case startsWith =>
      have hbegins : needle.isPrefixOf (hay.drop (Binary.cutToCount position)) =
          decide (found = some (Binary.cutToCount position)) := by
        rw [Bool.eq_iff_iff, decide_eq_true_iff]
        exact isPrefixOf_drop_iff hp
      rw [← hbegins]
      exact call_startsWith ev loc m s x position

/-- The occurrences of `"aba"` in `"ababa"` overlap. -/
theorem substring_search_is_exact_overlapping :
    let ev := Evaluator.ofBound 0
    let m : Machine := {}
    let call (f : StringFn) :=
      (Builtin.string f).call ev [.string "ababa", .string "aba", .number 2] default m
    "aba" ≠ "" ∧ Binary.cutToCount 2 = 2 ∧ 2 ≤ "ababa".length ∧ 2 < 2 ^ 53 ∧
      call .indexOf = .ok (.ofNat 2) m ∧ call .contains = .ok (.bool true) m ∧
      call .startsWith = .ok (.bool true) m ∧ (Value.ofNat 2).same (.ofNat 2) = true := by
  intro ev m call
  have hne : "aba" ≠ "" := by decide
  have hcut : Binary.cutToCount 2 = 2 := by decide
  have hlength : 2 ≤ "ababa".length := by decide
  have hsmall : 2 < 2 ^ 53 := by decide
  have hfound : indexFrom "ababa".toList "aba".toList 2 = some 2 := by decide
  obtain ⟨-, -, hcalls, hvalue⟩ := substring_search_is_exact ev default m "ababa" "aba" 2
  obtain ⟨hindex, hcontains, hstarts⟩ := hcalls 2 hcut
  rw [hfound] at hindex hcontains hstarts hvalue
  exact ⟨hne, hcut, hlength, hsmall, hindex, hcontains hne, hstarts hlength,
    (hvalue hsmall).2.mpr rfl⟩

end ScriptLang
