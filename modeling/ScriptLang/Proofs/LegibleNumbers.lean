import ScriptLang.Json.Writer
import ScriptLang.Proofs.NumberTexts
import ScriptLang.Proofs.WholeNumbers

/-!
# Legible numbers

A number is `JsonReader.Legible` if its JSON text is read as an equal number.

* Whole numbers up to `JsonWriter.largestWhole` are written as integers. Their digits are read onto
  a natural number, and no rounding happens on the way back (`JsonReader.legible_of_smallWhole`).
* Other numbers are written in a layout. Reading one takes several roundings, and whether the result
  is the same number is not decided here. But whatever is written of a finite number has the
  characters of a number alone, so what is read of the text by itself is read of it anywhere
  (`JsonReader.legible_of_finite`).
-/

namespace ScriptLang.JsonReader

open JsonCursor

variable {c : JsonCursor} {ch : Char}

/-! ### Integers -/

theorem le_ofDigitChars (l : List Char) (n : Nat) : n ≤ Nat.ofDigitChars 10 l n := by
  rw [Nat.ofDigitChars_eq_ofDigitChars_zero]
  exact Nat.le_add_right_of_le (Nat.le_mul_of_pos_left n (Nat.pow_pos (by decide)))

theorem digit?_of_rest {t : List Char} (hc : c.rest = ch :: t) (hch : ch.isDigit = true) :
    digit? c = some (ch.toNat - '0'.toNat) := by
  simp [digit?, peek?, hc, hch]

theorem digit?_of_nil (hc : c.rest = []) : digit? c = none := by
  simp [digit?, peek?, hc]

/-- Digits up to the end are read onto a number, if it fits into 64 bits. -/
theorem digitsOnto_eq {l : List Char} (hl : ∀ ch ∈ l, ch.isDigit = true) {fuel : Nat}
    (hf : l.length ≤ fuel) {n : Nat} (hn : Nat.ofDigitChars 10 l n < 2 ^ 64) (hc : c.rest = l) :
    ∃ count d, digitsOnto fuel n c = (Nat.ofDigitChars 10 l n, count, d) ∧ d.rest = [] := by
  induction l generalizing fuel n c with
  | nil => exact ⟨0, c, digitsOnto_of_none (digit?_of_nil hc) _ _, hc⟩
  | cons ch t ih =>
    obtain ⟨fuel, rfl⟩ : ∃ k, fuel = k + 1 := ⟨fuel - 1, by simp at hf; omega⟩
    have hd := digit?_of_rest hc (hl ch List.mem_cons_self)
    have hrest : c.advance.rest = t := by rw [rest_advance, hc, List.tail_cons]
    rw [Nat.ofDigitChars_cons] at hn ⊢
    obtain ⟨count, d, hdigits, hend⟩ := ih (fun ch' h' => hl ch' (List.mem_cons_of_mem ch h'))
      (Nat.le_of_succ_le_succ hf) hn hrest
    -- Further digits only make the number larger, so if all of it fits, so does this much.
    have hfits : ¬ Nat.pow 2 64 ≤ 10 * n + (ch.toNat - '0'.toNat) := by
      have := le_ofDigitChars t (10 * n + (ch.toNat - '0'.toNat))
      rw [Nat.pow_eq]
      omega
    refine ⟨count + 1, d, ?_, hend⟩
    simp only [digitsOnto, hd, if_neg hfits, hdigits]

/-- The digits of a number that is not zero do not begin with a zero. -/
theorem exists_cons_toDigits {n : Nat} (hn : n ≠ 0) :
    ∃ ch t, Nat.toDigits 10 n = ch :: t ∧ ch.toNat - '0'.toNat ≠ 0 := by
  induction n using Nat.base_induction 10 (by decide) with
  | single m hm =>
    refine ⟨_, _, Nat.toDigits_of_lt_base hm, ?_⟩
    rwa [show '0'.toNat = 48 from rfl, Nat.toNat_digitChar_sub_48_of_lt_ten hm]
  | digit m k hk hm ih =>
    obtain ⟨ch, t, ht, hch⟩ := ih (Nat.ne_of_gt hm)
    rw [← Nat.toDigits_append_toDigits (by decide) hm hk, ht]
    exact ⟨ch, _, rfl, hch⟩

theorem atEnd_of_nil (hc : c.rest = []) : AtEnd c := atEnd_of_none (by simp [peek?, hc])

/-- A zero is read as soon as it is seen. -/
theorem number_zero (hc : c.rest = ['0']) (negative : Bool) :
    number negative c = .ok (Binary.signed negative (Binary.ofNat 0), c.advance) := by
  have hrest : c.advance.rest = [] := by rw [rest_advance, hc, List.tail_cons]
  have hp : c.peek? = some '0' := by simp [peek?, hc]
  have hd : digit? c = some 0 := digit?_of_rest hc (by decide)
  have hmore : ¬ (digit? c.advance).isSome = true := by simp [digit?_of_nil hrest]
  unfold number
  simp only [hp, hd, if_neg hmore]
  exact afterInteger_of_atEnd (atEnd_of_nil hrest) negative 0

/-- Digits that do not begin with a zero are read one after the other. -/
theorem number_digits {n : Nat} (hn : n < 2 ^ 64) {t : List Char}
    (hdigits : ∀ ch' ∈ ch :: t, ch'.isDigit = true) (hch : ch.toNat - '0'.toNat ≠ 0)
    (hvalue : Nat.ofDigitChars 10 t (ch.toNat - '0'.toNat) = n) (hc : c.rest = ch :: t)
    (negative : Bool) :
    ∃ d, number negative c = .ok (Binary.signed negative (Binary.ofNat n), d) ∧ d.rest = [] := by
  have hrest : c.advance.rest = t := by rw [rest_advance, hc, List.tail_cons]
  have hp : c.peek? = some ch := by simp [peek?, hc]
  have hd := digit?_of_rest hc (hdigits ch List.mem_cons_self)
  have hfuel : t.length ≤ c.rest.length := by simp [hc]
  obtain ⟨count, d, hread, hnil⟩ := digitsOnto_eq
    (fun ch' h' => hdigits ch' (List.mem_cons_of_mem ch h')) hfuel (hvalue ▸ hn) hrest
  rw [hvalue] at hread
  have hmore : ¬ (digit? d).isSome = true := by simp [digit?_of_nil hnil]
  obtain ⟨k, hk⟩ : ∃ k, ch.toNat - '0'.toNat = k + 1 := Nat.exists_eq_succ_of_ne_zero hch
  refine ⟨d, ?_, hnil⟩
  rw [hk] at hread hd
  unfold number
  simp only [hp, hd, hread, if_neg hmore]
  exact afterInteger_of_atEnd (atEnd_of_nil hnil) negative n

/-- The digits of a number are read as the number. -/
theorem number_toDigits {n : Nat} (hn : n < 2 ^ 64) (hc : c.rest = Nat.toDigits 10 n)
    (negative : Bool) :
    ∃ d, number negative c = .ok (Binary.signed negative (Binary.ofNat n), d) ∧ d.rest = [] := by
  by_cases hzero : n = 0
  · subst hzero
    rw [Nat.toDigits_zero] at hc
    exact ⟨c.advance, number_zero hc negative, by rw [rest_advance, hc, List.tail_cons]⟩
  · obtain ⟨ch, t, ht, hch⟩ := exists_cons_toDigits hzero
    have hdigits : ∀ ch' ∈ ch :: t, ch'.isDigit = true := fun ch' h' =>
      Nat.isDigit_of_mem_toDigits (by decide) (by decide) (ht ▸ h')
    have hvalue : Nat.ofDigitChars 10 t (ch.toNat - '0'.toNat) = n := by
      have := Nat.ofDigitChars_ten_toDigits (n := n)
      rwa [ht, Nat.ofDigitChars_cons, Nat.mul_zero, Nat.zero_add] at this
    exact number_digits hn hdigits hch hvalue (hc.trans ht) negative

theorem toList_toString (i : Int) :
    (toString i).toList = (if i < 0 then ['-'] else []) ++ Nat.toDigits 10 i.natAbs := by
  rw [Int.toString_eq_repr, Int.repr_eq_if]
  by_cases hi : i < 0
  · rw [if_neg (Int.not_le.mpr hi), if_pos hi, String.toList_append, Nat.toList_repr]
    congr 2
    omega
  · rw [if_pos (Int.not_lt.mp hi), if_neg hi, Nat.toList_repr, List.nil_append]
    congr 1
    omega

theorem isNumeral_of_isDigit (h : ch.isDigit = true) : isNumeral ch = true := by
  unfold isNumeral
  rw [h, Bool.true_or]

/-- A text of numerals is read as what is read at its beginning, if nothing is left then. -/
theorem readsNumber_of_value {cs : List Char} {y : Float} (hcs : ∀ ch ∈ cs, isNumeral ch = true)
    (h : ∀ c : JsonCursor, c.rest = cs → ∀ fuel,
      ∃ d, value (fuel + 1) maxDepth c = .ok (.number y, d) ∧ d.rest = []) : ReadsNumber cs y := by
  refine ⟨hcs, ?_⟩
  have hstart : (start (String.ofList cs)).rest = cs := String.toList_ofList
  obtain ⟨d, hvalue, hend⟩ := h _ hstart (2 * (String.ofList cs).toList.length + 1)
  have hskip : d.skipBlanks = d := skipBlanks_of_peek? fun ch hch => by simp [peek?, hend] at hch
  exact read_of_value hvalue (hskip.symm ▸ hend)

/-- **Integers.** The digits of a number that fits into 64 bits, perhaps with a sign, are read as
the number. -/
theorem readsNumber_digits {n : Nat} (hn : n < 2 ^ 64) (negative : Bool) :
    ReadsNumber ((if negative then ['-'] else []) ++ Nat.toDigits 10 n)
      (Binary.signed negative (Binary.ofNat n)) := by
  have hdigit : ∀ ch ∈ Nat.toDigits 10 n, ch.isDigit = true := fun ch hch =>
    Nat.isDigit_of_mem_toDigits (by decide) (by decide) hch
  refine readsNumber_of_value ?_ ?_
  · -- The sign is a numeral as well.
    intro ch hch
    rcases List.mem_append.mp hch with hch | hch
    · cases negative with
      | false => cases hch
      | true =>
        rw [List.mem_singleton.mp hch]
        decide
    · exact isNumeral_of_isDigit (hdigit ch hch)
  · intro c hc fuel
    cases negative with
    | true =>
      have hp : c.peek? = some '-' := by simp [peek?, hc]
      have hrest : c.advance.rest = Nat.toDigits 10 n := by simp [rest_advance, hc]
      obtain ⟨d, hd, hend⟩ := number_toDigits hn hrest true
      refine ⟨d, ?_, hend⟩
      rw [value_of_isNumeral hp (by decide), if_pos rfl, hd]
      rfl
    | false =>
      obtain ⟨ch, t, ht⟩ := List.exists_cons_of_ne_nil (Nat.toDigits_ne_nil (n := n) (b := 10))
      have hch : ch.isDigit = true := hdigit ch (ht ▸ List.mem_cons_self)
      have hp : c.peek? = some ch := by simp [peek?, hc, ht]
      have hminus : ch ≠ '-' := by
        rintro rfl
        exact absurd hch (by decide)
      obtain ⟨d, hd, hend⟩ := number_toDigits hn hc false
      refine ⟨d, ?_, hend⟩
      rw [value_of_isNumeral hp (isNumeral_of_isDigit hch), if_neg hminus, if_pos hch, hd]
      rfl

/-! ### The numbers that are written -/

/-- The characters are those of a number. -/
def AllNumeral (s : String) : Prop := ∀ ch ∈ s.toList, isNumeral ch = true

theorem allNumeral_of_all {s : String} (h : s.toList.all isNumeral = true) : AllNumeral s :=
  List.all_eq_true.mp h

theorem allNumeral_append {s t : String} (hs : AllNumeral s) (ht : AllNumeral t) :
    AllNumeral (s ++ t) := by
  intro ch hch
  rw [String.toList_append] at hch
  exact (List.mem_append.mp hch).elim (hs ch) (ht ch)

theorem allNumeral_ofList {cs : List Char} (h : ∀ ch ∈ cs, isNumeral ch = true) :
    AllNumeral (String.ofList cs) := by
  intro ch hch
  rw [String.toList_ofList] at hch
  exact h ch hch

theorem allNumeral_toString (i : Int) : AllNumeral (toString i) := by
  unfold AllNumeral
  rw [toList_toString]
  intro ch hch
  rcases List.mem_append.mp hch with hch | hch
  · split at hch
    · rw [List.mem_singleton.mp hch]
      decide
    · cases hch
  · exact isNumeral_of_isDigit (Nat.isDigit_of_mem_toDigits (by decide) (by decide) hch)

theorem isNumeral_digitChars {d : Decimal} : ∀ ch ∈ Layout.digitChars d, isNumeral ch = true :=
  fun _ hch => isNumeral_of_isDigit (Nat.isDigit_of_mem_toDigits (by decide) (by decide) hch)

theorem isNumeral_replicate_zero {n : Nat} : ∀ ch ∈ List.replicate n '0', isNumeral ch = true := by
  intro ch hch
  rw [(List.mem_replicate.mp hch).2]
  decide

section Layouts

variable {cs : List Char} (hcs : ∀ ch ∈ cs, isNumeral ch = true)
include hcs

theorem allNumeral_writePositional (keepPoint : Bool) (point : Int) :
    AllNumeral (Layout.writePositional keepPoint cs point) := by
  unfold Layout.writePositional
  split
  · refine allNumeral_ofList ?_
    simp only [List.forall_mem_cons, List.forall_mem_append]
    exact ⟨by decide, by decide, isNumeral_replicate_zero, hcs⟩
  · dsimp only
    split
    · refine allNumeral_append (allNumeral_ofList ?_) ?_
      · simp only [List.forall_mem_append]
        exact ⟨hcs, isNumeral_replicate_zero⟩
      · cases keepPoint <;> exact allNumeral_of_all (by decide +kernel)
    · refine allNumeral_ofList ?_
      simp only [List.forall_mem_append, List.forall_mem_cons]
      exact ⟨fun ch hch => hcs ch (List.mem_of_mem_take hch), by decide,
        fun ch hch => hcs ch (List.mem_of_mem_drop hch)⟩

theorem allNumeral_writeExponent (plus : Bool) (point : Int) :
    AllNumeral (Layout.writeExponent plus cs point) := by
  unfold Layout.writeExponent
  dsimp only
  refine allNumeral_append (allNumeral_append (allNumeral_ofList ?_) ?_) (allNumeral_toString _)
  · match cs, hcs with
    | [], _ => exact nofun
    | [c], hcs => exact hcs
    | c :: d :: cs, hcs =>
      simp only [List.forall_mem_cons] at hcs ⊢
      exact ⟨hcs.1, by decide, hcs.2⟩
  · split <;> exact allNumeral_of_all (by decide +kernel)

end Layouts

theorem allNumeral_write {x : Float} (hx : Binary.isFinite x = true) :
    AllNumeral (Layout.json.write x) := by
  unfold Binary.isFinite at hx
  unfold Layout.write
  split at hx
  · rename_i negative m q hc
    rw [hc]
    dsimp only
    split
    · cases negative <;> exact allNumeral_of_all (by decide +kernel)
    · refine allNumeral_append ?_ ?_
      · cases negative <;> exact allNumeral_of_all (by decide +kernel)
      · split
        · exact allNumeral_writePositional isNumeral_digitChars _ _
        · exact allNumeral_writeExponent isNumeral_digitChars _ _
  · cases hx

/-- The text of a finite number. -/
theorem allNumeral_number {x : Float} (hx : Binary.isFinite x = true) :
    AllNumeral (JsonWriter.number x) := by
  unfold JsonWriter.number
  split
  · split
    · exact allNumeral_toString _
    · exact allNumeral_write hx
  · rw [if_pos hx]
    exact allNumeral_write hx

/-- **Legible.** The text of a number is read as an equal number. -/
def Legible (x : Float) : Prop := ∃ y, ReadsNumber (JsonWriter.number x).toList y ∧ (y == x) = true

/-- A whole number that is written as an integer. -/
def SmallWhole (x : Float) : Prop :=
  ∃ i, Binary.toInt? x = some i ∧ i.natAbs ≤ JsonWriter.largestWhole

/-- **Small whole numbers are legible.** They are written as integers, and read back exactly. -/
theorem legible_of_smallWhole {x : Float} (hx : SmallWhole x) : Legible x := by
  obtain ⟨i, hx, hi⟩ := hx
  have hsmall : i.natAbs < 2 ^ 53 := Nat.lt_of_le_of_lt hi (by decide)
  have htext : (JsonWriter.number x).toList =
      (if decide (i < 0) then ['-'] else []) ++ Nat.toDigits 10 i.natAbs := by
    unfold JsonWriter.number
    rw [hx]
    dsimp only
    rw [if_pos hi, toList_toString]
    simp only [decide_eq_true_eq]
  refine ⟨_, ?_, Binary.signed_ofNat_natAbs hx hsmall⟩
  rw [htext]
  exact readsNumber_digits (hsmall.trans (by decide)) _

/-- **Finite numbers.** Those that are not small and whole are legible if what is read of their text
by itself is an equal number. -/
theorem legible_of_finite {x : Float} (hx : Binary.isFinite x = true)
    (hread : ¬ SmallWhole x →
      ∃ y, read (JsonWriter.number x) = .ok (.number y) ∧ (y == x) = true) : Legible x := by
  by_cases hwhole : SmallWhole x
  · exact legible_of_smallWhole hwhole
  · obtain ⟨y, hread, hy⟩ := hread hwhole
    exact ⟨y, ⟨allNumeral_number hx, by rwa [String.ofList_toList]⟩, hy⟩

end ScriptLang.JsonReader
