import Mathlib.Order.Bounds.Basic
import Mathlib.Order.MinMax
import ScriptLang.Diagnostic.Nearest

/-!
# Distances count edits

The distance of two texts is computed row by row from a table of the distances of their prefixes.
What it is meant to be is the least number of edits that turn one text into the other.

* `Edit` is one edit, and `Edits` are so many of them, one after the other. They can be undone,
  appended, done behind a character and done on reversed texts.
* `leastEdits` is the recursion over the first characters of both texts. So many edits are enough
  (`edits_leastEdits`), and one edit changes the number by one at most, whatever the other text is
  (`Edit.leastEdits_le`), so fewer are not (`isLeast_leastEdits`).
* The table is about the last characters of prefixes, and the recursion about the first ones of
  texts. Since reversed texts have as many edits, the recursion holds at the last characters as
  well (`leastEdits_concat`), which is what one entry of the table is computed by.
* `entries` is a row of the table. `nextRow_entries` is the step from a row to the next one, and
  `lastRow_entries` the run over all rows.
* `IsNearest` says of a candidate that it is the first one at the least distance, empty ones aside.
  `Scanned` is what is known of the best candidate so far.
* `suggestions_are_nearest` is the main statement.
-/

namespace ScriptLang.Nearest

/-! ### Edits -/

/-- **Edit.** One character is put in, taken out or replaced. -/
inductive Edit : List Char → List Char → Prop
  | insert (before after : List Char) (c : Char) : Edit (before ++ after) (before ++ c :: after)
  | delete (before after : List Char) (c : Char) : Edit (before ++ c :: after) (before ++ after)
  | replace (before after : List Char) (c d : Char) :
    Edit (before ++ c :: after) (before ++ d :: after)

/-- **Edits.** So many edits, one after the other. -/
inductive Edits : Nat → List Char → List Char → Prop
  | nil (as : List Char) : Edits 0 as as
  | cons {n : Nat} {as bs cs : List Char} (h : Edit as bs) (hs : Edits n bs cs) :
    Edits (n + 1) as cs

variable {m n : Nat} {as bs cs : List Char} {a b c d : Char}

namespace Edit

theorem symm (h : Edit as bs) : Edit bs as := by
  cases h with
  | insert before after c => exact .delete before after c
  | delete before after c => exact .insert before after c
  | replace before after c d => exact .replace before after d c

theorem after_char (c : Char) (h : Edit as bs) : Edit (c :: as) (c :: bs) := by
  cases h with
  | insert before after d => exact .insert (c :: before) after d
  | delete before after d => exact .delete (c :: before) after d
  | replace before after d e => exact .replace (c :: before) after d e

theorem reverse (h : Edit as bs) : Edit as.reverse bs.reverse := by
  cases h with
  | insert before after c => simpa using Edit.insert after.reverse before.reverse c
  | delete before after c => simpa using Edit.delete after.reverse before.reverse c
  | replace before after c d => simpa using Edit.replace after.reverse before.reverse c d

end Edit

namespace Edits

theorem single (h : Edit as bs) : Edits 1 as bs := .cons h (.nil bs)

theorem append (h : Edits m as bs) (h' : Edits n bs cs) : Edits (m + n) as cs := by
  induction h with
  | nil => rwa [Nat.zero_add]
  | cons hedit _ ih =>
    rw [Nat.add_right_comm]
    exact .cons hedit (ih h')

theorem symm (h : Edits n as bs) : Edits n bs as := by
  induction h with
  | nil as => exact .nil as
  | cons hedit _ ih => exact ih.append (.single hedit.symm)

theorem after_char (c : Char) (h : Edits n as bs) : Edits n (c :: as) (c :: bs) := by
  induction h with
  | nil as => exact .nil (c :: as)
  | cons hedit _ ih => exact .cons (hedit.after_char c) ih

theorem reverse (h : Edits n as bs) : Edits n as.reverse bs.reverse := by
  induction h with
  | nil as => exact .nil as.reverse
  | cons hedit _ ih => exact .cons hedit.reverse ih

theorem eq_of_zero (h : Edits 0 as bs) : as = bs := by
  cases h
  rfl

/-- Every text is made from the empty one, character by character. -/
theorem of_nil (bs : List Char) : Edits bs.length [] bs := by
  induction bs with
  | nil => exact .nil []
  | cons b bs ih => exact .cons (.insert [] [] b) (ih.after_char b)

end Edits

/-! ### The least number of edits -/

/-- The least number of edits between two texts, from their first characters: one of the two is
taken out or put in, or the first becomes the other, which takes no edit if they are the same. -/
def leastEdits : List Char → List Char → Nat
  | [], bs => bs.length
  | as, [] => as.length
  | a :: as, b :: bs =>
    min (min (leastEdits as (b :: bs) + 1) (leastEdits (a :: as) bs + 1))
      (leastEdits as bs + if a = b then 0 else 1)
termination_by as bs => as.length + bs.length

@[simp] theorem leastEdits_nil (bs : List Char) : leastEdits [] bs = bs.length := by
  unfold leastEdits
  rfl

@[simp] theorem leastEdits_to_nil (as : List Char) : leastEdits as [] = as.length := by
  cases as with
  | nil => exact leastEdits_nil []
  | cons a as =>
    unfold leastEdits
    rfl

theorem leastEdits_cons_cons (a b : Char) (as bs : List Char) :
    leastEdits (a :: as) (b :: bs) =
      min (min (leastEdits as (b :: bs) + 1) (leastEdits (a :: as) bs + 1))
        (leastEdits as bs + if a = b then 0 else 1) := by
  rw [leastEdits]

/-- So many edits are enough. -/
theorem edits_leastEdits (as bs : List Char) : Edits (leastEdits as bs) as bs := by
  induction as, bs using leastEdits.induct with
  | case1 bs =>
    rw [leastEdits_nil]
    exact .of_nil bs
  | case2 as _ =>
    rw [leastEdits_to_nil]
    exact (Edits.of_nil as).symm
  | case3 a as b bs ihDelete ihInsert ihReplace =>
    have hdelete : Edits (leastEdits as (b :: bs) + 1) (a :: as) (b :: bs) :=
      .cons (.delete [] as a) ihDelete
    have hinsert : Edits (leastEdits (a :: as) bs + 1) (a :: as) (b :: bs) :=
      .append ihInsert (.single (.insert [] bs b))
    have hreplace : Edits (leastEdits as bs + if a = b then 0 else 1) (a :: as) (b :: bs) := by
      split
      · next h =>
        subst h
        exact ihReplace.after_char a
      · exact .cons (.replace [] as a b) (ihReplace.after_char b)
    -- The least of the three numbers is one of them.
    rw [leastEdits_cons_cons]
    rcases min_choice (min (leastEdits as (b :: bs) + 1) (leastEdits (a :: as) bs + 1))
      (leastEdits as bs + if a = b then 0 else 1) with h | h
    · rw [h]
      rcases min_choice (leastEdits as (b :: bs) + 1) (leastEdits (a :: as) bs + 1) with h' | h'
      · rwa [h']
      · rwa [h']
    · rwa [h]

/-! #### One edit changes the number by one at most -/

theorem leastEdits_to_cons_le (as : List Char) (b : Char) (bs : List Char) :
    leastEdits as (b :: bs) ≤ leastEdits as bs + 1 := by
  cases as with
  | nil => simp
  | cons a as =>
    rw [leastEdits_cons_cons]
    omega

theorem leastEdits_cons_le (a : Char) (as cs : List Char) :
    leastEdits (a :: as) cs ≤ leastEdits as cs + 1 := by
  cases cs with
  | nil => simp
  | cons c cs =>
    rw [leastEdits_cons_cons]
    omega

theorem leastEdits_le_cons (a : Char) (as cs : List Char) :
    leastEdits as cs ≤ leastEdits (a :: as) cs + 1 := by
  induction cs with
  | nil =>
    simp only [leastEdits_to_nil, List.length_cons]
    omega
  | cons c cs ih =>
    have hlater : leastEdits as (c :: cs) ≤ leastEdits as cs + 1 := leastEdits_to_cons_le as c cs
    rw [leastEdits_cons_cons]
    omega

theorem leastEdits_replace_le (a b : Char) (as cs : List Char) :
    leastEdits (a :: as) cs ≤ leastEdits (b :: as) cs + 1 := by
  induction cs with
  | nil => simp
  | cons c cs ih =>
    rw [leastEdits_cons_cons, leastEdits_cons_cons]
    split <;> split <;> omega

theorem leastEdits_after_char_le (a : Char) (h : ∀ cs, leastEdits as cs ≤ leastEdits bs cs + 1)
    (cs : List Char) : leastEdits (a :: as) cs ≤ leastEdits (a :: bs) cs + 1 := by
  induction cs with
  | nil =>
    have hlength := h []
    simp only [leastEdits_to_nil, List.length_cons] at hlength ⊢
    omega
  | cons c cs ih =>
    have hdelete := h (c :: cs)
    have hreplace := h cs
    rw [leastEdits_cons_cons, leastEdits_cons_cons]
    omega

/-- One edit on the left changes the number by one at most. -/
theorem Edit.leastEdits_le (h : Edit as bs) (cs : List Char) :
    leastEdits as cs ≤ leastEdits bs cs + 1 := by
  -- On what stands before the place of the edit, for all texts on the right at once.
  cases h with
  | insert before after c =>
    induction before generalizing cs with
    | nil => exact leastEdits_le_cons c after cs
    | cons d before ih => exact leastEdits_after_char_le d ih cs
  | delete before after c =>
    induction before generalizing cs with
    | nil => exact leastEdits_cons_le c after cs
    | cons d before ih => exact leastEdits_after_char_le d ih cs
  | replace before after c e =>
    induction before generalizing cs with
    | nil => exact leastEdits_replace_le c e after cs
    | cons d before ih => exact leastEdits_after_char_le d ih cs

theorem leastEdits_self (as : List Char) : leastEdits as as = 0 := by
  induction as with
  | nil => simp
  | cons a as ih =>
    rw [leastEdits_cons_cons, ih]
    simp

/-- Fewer edits are not enough. -/
theorem Edits.leastEdits_le (h : Edits n as bs) : leastEdits as bs ≤ n := by
  induction h with
  | nil as => exact (leastEdits_self as).le
  | cons hedit _ ih => exact (hedit.leastEdits_le _).trans (Nat.succ_le_succ ih)

/-- **The recursion finds the least number of edits.** -/
theorem isLeast_leastEdits (as bs : List Char) :
    IsLeast {n | Edits n as bs} (leastEdits as bs) :=
  ⟨edits_leastEdits as bs, fun _ h => h.leastEdits_le⟩

theorem leastEdits_reverse (as bs : List Char) :
    leastEdits as.reverse bs.reverse = leastEdits as bs := by
  apply Nat.le_antisymm
  · exact (edits_leastEdits as bs).reverse.leastEdits_le
  · have h := (edits_leastEdits as.reverse bs.reverse).reverse
    rw [List.reverse_reverse, List.reverse_reverse] at h
    exact h.leastEdits_le

/-- The recursion at the last characters. -/
theorem leastEdits_concat (a b : Char) (as bs : List Char) :
    leastEdits (as ++ [a]) (bs ++ [b]) =
      min (min (leastEdits as (bs ++ [b]) + 1) (leastEdits (as ++ [a]) bs + 1))
        (leastEdits as bs + if a = b then 0 else 1) := by
  have h := leastEdits_cons_cons a b as.reverse bs.reverse
  rw [← List.reverse_concat, ← List.reverse_concat] at h
  simpa only [leastEdits_reverse] using h

/-! ### The table -/

/-- **Entries.** A row of the table: the distances of `as` to the prefixes of a text that are longer
than `seen`, where `rest` is what follows `seen` in the text. -/
def entries (as : List Char) : List Char → List Char → List Nat
  | _, [] => []
  | seen, b :: rest => leastEdits as (seen ++ [b]) :: entries as (seen ++ [b]) rest

/-- The step from a row of the table to the next one. -/
theorem nextRow_entries (as : List Char) (a : Char) (seen rest : List Char) :
    nextRow a rest (leastEdits (as ++ [a]) seen) (leastEdits as seen) (entries as seen rest) =
      entries (as ++ [a]) seen rest := by
  induction rest generalizing seen with
  | nil => rfl
  | cons b rest ih =>
    rw [entries, nextRow, ← leastEdits_concat, ih, entries]

/-- The run over all rows of the table. -/
theorem lastRow_entries (bs done as : List Char) :
    lastRow bs as done.length (entries done [] bs) =
      ((done ++ as).length, entries (done ++ as) [] bs) := by
  induction as generalizing done with
  | nil => rw [lastRow, List.append_nil]
  | cons a as ih =>
    have hrow := nextRow_entries done a [] bs
    rw [leastEdits_to_nil, leastEdits_to_nil, List.length_append, List.length_singleton] at hrow
    have hrest := ih (done ++ [a])
    rw [List.length_append, List.length_singleton, List.append_assoc, List.singleton_append]
      at hrest
    rw [lastRow, hrow, hrest]

/-- The first row of the table. -/
theorem entries_nil (seen rest : List Char) :
    entries [] seen rest = List.range' (seen.length + 1) rest.length := by
  induction rest generalizing seen with
  | nil => rfl
  | cons b rest ih =>
    rw [entries, ih, List.length_cons, List.range'_succ]
    simp

/-- The last entry of a row is about the whole text. -/
theorem getLastD_entries (as seen rest : List Char) :
    (entries as seen rest).getLastD (leastEdits as seen) = leastEdits as (seen ++ rest) := by
  induction rest generalizing seen with
  | nil => rw [entries, List.getLastD_nil, List.append_nil]
  | cons b rest ih =>
    rw [entries, List.getLastD_cons, ih, List.append_assoc, List.singleton_append]

/-- The table ends with the least number of edits. -/
theorem distance_eq_leastEdits (a b : String) :
    distance a b = leastEdits a.toList b.toList := by
  have hfirst := entries_nil [] b.toList
  have hrun := lastRow_entries b.toList [] a.toList
  rw [hfirst] at hrun
  have hlast := getLastD_entries a.toList [] b.toList
  rw [leastEdits_to_nil] at hlast
  unfold distance
  change (lastRow b.toList a.toList 0 (List.range' 1 b.toList.length)).2.getLastD
    (lastRow b.toList a.toList 0 (List.range' 1 b.toList.length)).1 = _
  rw [show lastRow b.toList a.toList 0 (List.range' 1 b.toList.length) = _ from hrun]
  exact hlast

/-! ### Distances of texts -/

theorem distance_symm (a b : String) : distance a b = distance b a := by
  rw [distance_eq_leastEdits, distance_eq_leastEdits]
  apply Nat.le_antisymm
  · exact (edits_leastEdits b.toList a.toList).symm.leastEdits_le
  · exact (edits_leastEdits a.toList b.toList).symm.leastEdits_le

theorem distance_eq_zero_iff (a b : String) : distance a b = 0 ↔ a = b := by
  rw [distance_eq_leastEdits]
  constructor
  · intro h
    have hedits := edits_leastEdits a.toList b.toList
    rw [h] at hedits
    exact String.toList_injective hedits.eq_of_zero
  · rintro rfl
    exact leastEdits_self a.toList

theorem distance_triangle (a b c : String) : distance a c ≤ distance a b + distance b c := by
  simp only [distance_eq_leastEdits]
  exact ((edits_leastEdits a.toList b.toList).append
    (edits_leastEdits b.toList c.toList)).leastEdits_le

/-! ### The nearest candidate -/

/-- **Nearest.** The text is a candidate and not empty. No candidate is nearer, and those before it
are farther off, where empty candidates do not count. -/
def IsNearest (name : String) (candidates : List String) (c : String) : Prop :=
  ∃ i : Nat, candidates[i]? = some c ∧ c ≠ "" ∧
    ∀ (j : Nat) (e : String), candidates[j]? = some e → e ≠ "" →
      distance name c ≤ distance name e ∧ (j < i → distance name c < distance name e)

/-- **Scanned.** What is known of the best candidate so far. -/
def Scanned (name : String) (seen : List String) : Option (String × Nat) → Prop
  | none => ∀ e ∈ seen, e = ""
  | some (c, d) => d = distance name c ∧ IsNearest name seen c

variable {name e x y : String} {seen candidates : List String} {best : Option (String × Nat)}

theorem IsNearest.unique (hx : IsNearest name candidates x) (hy : IsNearest name candidates y) :
    x = y := by
  obtain ⟨i, hi, hix, hmin⟩ := hx
  obtain ⟨j, hj, hjy, hmin'⟩ := hy
  -- Of two places the one in front would be nearer, and the one behind not farther off.
  rcases Nat.lt_trichotomy i j with h | rfl | h
  · have hle := (hmin j y hj hjy).1
    have hlt := (hmin' i x hi hix).2 h
    omega
  · rw [hi] at hj
    exact Option.some.inj hj
  · have hle := (hmin' i x hi hix).1
    have hlt := (hmin j y hj hjy).2 h
    omega

/-- A candidate that is not nearer than the best one changes nothing. -/
theorem IsNearest.concat (h : IsNearest name seen x)
    (he : e ≠ "" → distance name x ≤ distance name e) : IsNearest name (seen ++ [e]) x := by
  obtain ⟨i, hi, hx, hmin⟩ := h
  have hlt : i < seen.length := (List.getElem?_eq_some_iff.mp hi).1
  refine ⟨i, by rw [List.getElem?_append_left hlt, hi], hx, fun j u hj hu => ?_⟩
  by_cases hjlt : j < seen.length
  · rw [List.getElem?_append_left hjlt] at hj
    exact hmin j u hj hu
  · obtain rfl : u = e := by
      rw [List.getElem?_append_right (Nat.le_of_not_lt hjlt)] at hj
      simpa using List.mem_of_getElem? hj
    exact ⟨he hu, fun hji => by omega⟩

/-- A candidate that is nearer than all before it is the best one. -/
theorem isNearest_concat (he : e ≠ "")
    (h : ∀ u ∈ seen, u ≠ "" → distance name e < distance name u) :
    IsNearest name (seen ++ [e]) e := by
  refine ⟨seen.length, by simp, he, fun j u hj hu => ?_⟩
  by_cases hjlt : j < seen.length
  · rw [List.getElem?_append_left hjlt] at hj
    have hlt := h u (List.mem_of_getElem? hj) hu
    exact ⟨hlt.le, fun _ => hlt⟩
  · obtain rfl : u = e := by
      rw [List.getElem?_append_right (Nat.le_of_not_lt hjlt)] at hj
      simpa using List.mem_of_getElem? hj
    exact ⟨le_rfl, fun hji => absurd hji hjlt⟩

theorem IsNearest.le (h : IsNearest name seen x) {u : String} (hu : u ∈ seen) (hne : u ≠ "") :
    distance name x ≤ distance name u := by
  obtain ⟨i, -, -, hmin⟩ := h
  obtain ⟨j, hj⟩ := List.mem_iff_getElem?.mp hu
  exact (hmin j u hj hne).1

/-- The step over one candidate. -/
theorem Scanned.step (h : Scanned name seen best) (e : String) :
    Scanned name (seen ++ [e]) (closest name [e] best) := by
  unfold closest
  by_cases he : e.isEmpty = true
  · -- An empty candidate is passed over.
    rw [if_pos he]
    have hempty : e = "" := by simpa using he
    cases best with
    | none =>
      intro u hu
      rcases List.mem_append.mp hu with hu | hu
      · exact h u hu
      · exact (List.mem_singleton.mp hu).trans hempty
    | some p => exact ⟨h.1, h.2.concat fun hne => absurd hempty hne⟩
  · rw [if_neg he]
    have hne : e ≠ "" := by simpa using he
    cases best with
    | none => exact ⟨rfl, isNearest_concat hne fun u hu hu' => absurd (h u hu) hu'⟩
    | some p =>
      obtain ⟨c, d⟩ := p
      obtain ⟨rfl, hc⟩ := h
      by_cases hlt : distance name e < distance name c
      · simp only [if_pos hlt]
        exact ⟨rfl, isNearest_concat hne fun u hu hu' => hlt.trans_le (hc.le hu hu')⟩
      · simp only [if_neg hlt]
        exact ⟨rfl, hc.concat fun _ => Nat.le_of_not_lt hlt⟩

theorem closest_cons (name e : String) (candidates : List String) (best : Option (String × Nat)) :
    closest name (e :: candidates) best = closest name candidates (closest name [e] best) := by
  simp only [closest]
  split
  · rfl
  · cases best <;> rfl

/-- The run over all candidates. -/
theorem Scanned.run (h : Scanned name seen best) (candidates : List String) :
    Scanned name (seen ++ candidates) (closest name candidates best) := by
  induction candidates generalizing seen best with
  | nil => simpa [closest] using h
  | cons e candidates ih =>
    have hrest := ih (h.step e)
    rw [List.append_assoc, List.singleton_append] at hrest
    rwa [closest_cons]

theorem scanned_closest (name : String) (candidates : List String) :
    Scanned name candidates (closest name candidates none) := by
  have hnone : Scanned name [] none := fun e h => absurd h List.not_mem_nil
  simpa using hnone.run candidates

/-- What is chosen is the nearest candidate, if it is near enough. -/
theorem choose_eq_some_iff :
    choose name candidates = some x ↔
      IsNearest name candidates x ∧ distance name x ≤ threshold := by
  have hscan := scanned_closest name candidates
  unfold choose
  cases hbest : closest name candidates none with
  | none =>
    -- All candidates are empty, so there is no nearest one.
    rw [hbest] at hscan
    constructor
    · intro h
      cases h
    · rintro ⟨⟨i, hi, hne, -⟩, -⟩
      exact absurd (hscan x (List.mem_of_getElem? hi)) hne
  | some p =>
    rw [hbest] at hscan
    obtain ⟨c, d⟩ := p
    obtain ⟨rfl, hc⟩ := hscan
    dsimp only
    rw [Option.ite_none_right_eq_some, Option.some.injEq]
    constructor
    · rintro ⟨hnear, rfl⟩
      exact ⟨hc, hnear⟩
    · rintro ⟨hx, hnear⟩
      obtain rfl := hc.unique hx
      exact ⟨hnear, rfl⟩

/-- Nothing is chosen if all candidates are empty or too far off. -/
theorem choose_eq_none_iff :
    choose name candidates = none ↔ ∀ c ∈ candidates, c ≠ "" → threshold < distance name c := by
  have hscan := scanned_closest name candidates
  unfold choose
  cases hbest : closest name candidates none with
  | none =>
    rw [hbest] at hscan
    exact ⟨fun _ c hc hne => absurd (hscan c hc) hne, fun _ => rfl⟩
  | some p =>
    rw [hbest] at hscan
    obtain ⟨c, d⟩ := p
    obtain ⟨rfl, hc⟩ := hscan
    dsimp only
    rw [ite_eq_right_iff]
    constructor
    · -- The candidate that was found is the closest of all, and it is too far off.
      intro h u hu hne
      refine lt_of_not_ge fun hle => ?_
      cases h ((hc.le hu hne).trans hle)
    · intro h hnear
      obtain ⟨i, hi, hne, -⟩ := hc
      exact absurd hnear (Nat.not_le_of_lt (h c (List.mem_of_getElem? hi) hne))

/-- **Suggestions are nearest.** The distance of two texts is what the recursion gives, and that is
the least number of edits from one to the other; it is symmetric, zero for equal texts alone, and
no longer than a way over a third text. What is chosen is the nearest candidate, if it is at most
two edits off; and nothing is chosen if all candidates are farther off or empty. -/
theorem suggestions_are_nearest :
    (∀ a b : String, distance a b = leastEdits a.toList b.toList ∧
      IsLeast {n | Edits n a.toList b.toList} (distance a b) ∧
      distance a b = distance b a ∧ (distance a b = 0 ↔ a = b) ∧
      ∀ c, distance a c ≤ distance a b + distance b c) ∧
    ∀ (name : String) (candidates : List String),
      (∀ c, choose name candidates = some c ↔
        IsNearest name candidates c ∧ distance name c ≤ 2) ∧
      (choose name candidates = none ↔ ∀ c ∈ candidates, c ≠ "" → 2 < distance name c) := by
  constructor
  · intro a b
    refine ⟨distance_eq_leastEdits a b, ?_, distance_symm a b, distance_eq_zero_iff a b,
      distance_triangle a b⟩
    rw [distance_eq_leastEdits]
    exact isLeast_leastEdits a.toList b.toList
  · intro name candidates
    exact ⟨fun c => choose_eq_some_iff, choose_eq_none_iff⟩

/-- Of candidates at the same distance the first one is chosen. -/
example : choose "cat" ["", "bat", "hat"] = some "bat" := by decide +kernel

end ScriptLang.Nearest
