import ScriptLang.Json.Reader

/-!
# Numbers in JSON texts

The reader of a number looks ahead, for one more digit, a point or an exponent. So what it makes of
a text depends on what stands behind, unless that is something at which a number ends.

* `isNumeral` — the characters that a number may go on with. `EndsNumber` — a text that begins with
  none of them. Commas, brackets and blanks are such texts.
* `JsonCursor.Extends` — of two cursors, the second one stands before the same rest of a number as
  the first one, with a text behind it.
* `JsonReader.Follows` — if a step succeeds at the first cursor, it does so at the second one, with
  the same result. Each part of the reader does: two runs over digits come to their end together
  (`JsonReader.digits_induction`), and with nothing of a number left, no part goes on.
* `JsonReader.ReadsNumber` — a text that is read as a number when it stands alone. It is read as
  that number wherever it stands (`JsonReader.ReadsNumber.value`).
-/

namespace ScriptLang

/-- A character of a number. -/
def isNumeral (ch : Char) : Bool := ch.isDigit || ch ∈ ['+', '-', '.', 'e', 'E']

/-- **Ends.** A text at which a number before it ends. -/
def EndsNumber (r : List Char) : Prop := ∀ ch ∈ r.head?, isNumeral ch = false

namespace JsonCursor

/-- **Extends.** What is left of a number at the first cursor is left at the second one, with a text
behind it. -/
structure Extends (r : List Char) (c c' : JsonCursor) : Prop where
  rest : c'.rest = c.rest ++ r
  numeral : ∀ ch ∈ c.rest, isNumeral ch = true

variable {r : List Char} {c c' : JsonCursor} {ch : Char}

theorem rest_advance (c : JsonCursor) : c.advance.rest = c.rest.tail := by
  unfold advance
  cases h : c.rest <;> simp [h]

theorem peek?_eq_some (h : c.peek? = some ch) : c.rest = ch :: c.advance.rest := by
  unfold peek? at h
  rw [rest_advance]
  cases hc : c.rest with
  | nil =>
    rw [hc] at h
    cases h
  | cons d rest =>
    rw [hc] at h
    cases h
    rfl

namespace Extends

variable (h : Extends r c c')
include h

theorem peek?_of_some (hp : c.peek? = some ch) : c'.peek? = some ch := by
  unfold peek? at hp ⊢
  rw [h.rest, List.head?_append, hp]
  rfl

theorem numeral_peek? (hp : c.peek? = some ch) : isNumeral ch = true :=
  h.numeral ch (List.mem_of_mem_head? hp)

theorem peek?_of_none (hp : c.peek? = none) : c'.peek? = r.head? := by
  unfold peek? at hp ⊢
  rw [h.rest, List.head?_eq_none_iff.mp hp, List.nil_append]

theorem advance (hp : c.peek? = some ch) : Extends r c.advance c'.advance where
  rest := by
    rw [rest_advance, rest_advance, h.rest, peek?_eq_some hp]
    rfl
  numeral ch' hch' := by
    rw [rest_advance] at hch'
    exact h.numeral ch' (List.mem_of_mem_tail hch')

end Extends

/-- Nothing of a number is left. -/
def AtEnd (c : JsonCursor) : Prop := ∀ ch, c.peek? = some ch → isNumeral ch = false

theorem atEnd_of_none (hp : c.peek? = none) : AtEnd c := by
  intro ch hch
  rw [hp] at hch
  cases hch

theorem Extends.atEnd (h : Extends r c c') (hr : EndsNumber r) (hp : c.peek? = none) :
    AtEnd c' := by
  intro ch hch
  rw [h.peek?_of_none hp] at hch
  exact hr ch hch

theorem failNext_ne_ok {α : Type} {f : JsonFault} (a : α) : c.failNext f ≠ .ok a := by
  intro h
  unfold failNext at h
  split at h
  · cases h
  · split at h <;> cases h

end JsonCursor

namespace JsonReader

open JsonCursor

variable {α : Type} {r : List Char} {c c' : JsonCursor} {ch : Char}

/-- **Follows.** If the first step succeeds, the second one does so with the same result and the
text behind. -/
def Follows (r : List Char) (x y : Step α) : Prop :=
  ∀ a c, x = .ok (a, c) → ∃ c', y = .ok (a, c') ∧ Extends r c c'

theorem follows_failHere {f : JsonFault} {y : Step α} : Follows r (c.failHere f) y := by
  intro a d h
  cases h

theorem follows_failNext {f : JsonFault} {y : Step α} : Follows r (c.failNext f) y :=
  fun _ _ h => absurd h (failNext_ne_ok _)

theorem follows_ok {a : α} (h : Extends r c c') : Follows r (.ok (a, c)) (.ok (a, c')) := by
  rintro b d hd
  cases hd
  exact ⟨c', rfl, h⟩

theorem length_advance (c : JsonCursor) : c.advance.rest.length ≤ c.rest.length := by
  rw [rest_advance, List.length_tail]
  omega

/-- Nothing of a number is left, no point and no exponent either. -/
theorem afterDigits_of_atEnd (hc : AtEnd c) (negative : Bool) (digits : Nat) (e : Int) :
    afterDigits negative digits e c = finish negative digits e c := by
  unfold afterDigits
  split
  · exact absurd (hc _ ‹_›) (by decide)
  · exact absurd (hc _ ‹_›) (by decide)
  · rfl

theorem longInteger_of_atEnd {count : Nat} {d : JsonCursor}
    (hc : skipDigits c.rest.length c = (count, d)) (hd : AtEnd d) (negative : Bool) (digits : Nat) :
    longInteger negative digits c = afterDigits negative digits count d := by
  unfold longInteger
  rw [hc]
  dsimp only
  split
  · exact absurd (hd _ ‹_›) (by decide)
  · rfl

theorem afterInteger_of_atEnd (hc : AtEnd c) (negative : Bool) (digits : Nat) :
    afterInteger negative digits c =
      .ok (if negative then -Binary.ofNat digits else Binary.ofNat digits, c) := by
  unfold afterInteger
  split
  · exact absurd (hc _ ‹_›) (by decide)
  · exact absurd (hc _ ‹_›) (by decide)
  · exact absurd (hc _ ‹_›) (by decide)
  · rfl

theorem digit?_eq_some {d : Nat} (h : digit? c = some d) : ∃ ch, c.peek? = some ch := by
  unfold digit? at h
  split at h
  · exact ⟨_, ‹_›⟩
  · cases h

theorem digit?_extends (hr : EndsNumber r) (h : Extends r c c') : digit? c' = digit? c := by
  cases hp : c.peek? with
  | some ch => simp only [digit?, hp, h.peek?_of_some hp]
  | none =>
    rw [digit?, digit?, hp, h.peek?_of_none hp]
    cases hr' : r.head? with
    | none => rfl
    | some ch =>
      have hch : ch.isDigit = false := by
        have := hr ch hr'
        simp only [isNumeral, Bool.or_eq_false_iff] at this
        exact this.1
      simp [hch]

/-- There is a bound left where a digit is left. -/
theorem exists_fuel {d fuel : Nat} (hd : digit? c = some d) (hf : c.rest.length ≤ fuel) :
    ∃ k, fuel = k + 1 ∧ c.advance.rest.length ≤ k := by
  obtain ⟨ch, hp⟩ := digit?_eq_some hd
  rw [peek?_eq_some hp, List.length_cons] at hf
  exact ⟨fuel - 1, by omega, by omega⟩

theorem digitsOnto_of_none (hd : digit? c = none) (fuel n : Nat) :
    digitsOnto fuel n c = (n, 0, c) := by
  cases fuel with
  | zero => rfl
  | succ fuel => simp only [digitsOnto, hd]

theorem skipDigits_of_none (hd : digit? c = none) (fuel : Nat) : skipDigits fuel c = (0, c) := by
  cases fuel with
  | zero => rfl
  | succ fuel => simp only [skipDigits, hd]

theorem exponentOnto_of_none (hd : digit? c = none) (fuel n : Nat) :
    exponentOnto fuel n c = (some n, c) := by
  cases fuel with
  | zero => rfl
  | succ fuel => simp only [exponentOnto, hd]

/-- Two runs over the digits of a number, the first of which has nothing behind the number. Both
come to the end of the digits together, within bounds that are not met. -/
theorem digits_induction (hr : EndsNumber r) {P : Nat → JsonCursor → Nat → JsonCursor → Prop}
    (stop : ∀ fuel fuel' c c', Extends r c c' → digit? c = none → digit? c' = none →
      P fuel c fuel' c')
    (step : ∀ fuel fuel' c c' d, Extends r c c' → digit? c = some d → digit? c' = some d →
      P fuel c.advance fuel' c'.advance → P (fuel + 1) c (fuel' + 1) c')
    {fuel fuel' : Nat} (h : Extends r c c') (hf : c.rest.length ≤ fuel)
    (hf' : c'.rest.length ≤ fuel') : P fuel c fuel' c' := by
  induction fuel generalizing fuel' c c' with
  | zero =>
    cases hd : digit? c with
    | none => exact stop _ _ c c' h hd ((digit?_extends hr h).trans hd)
    | some d =>
      obtain ⟨_, hk, _⟩ := exists_fuel hd hf
      cases hk
  | succ fuel ih =>
    have hd' := digit?_extends hr h
    cases hd : digit? c with
    | none => exact stop _ _ c c' h hd (hd'.trans hd)
    | some d =>
      obtain ⟨ch, hp⟩ := digit?_eq_some hd
      obtain ⟨_, hk, hlt⟩ := exists_fuel hd hf
      obtain ⟨fuel', rfl, hlt'⟩ := exists_fuel (hd'.trans hd) hf'
      cases hk
      exact step fuel fuel' c c' d h hd (hd'.trans hd) (ih (h.advance hp) hlt hlt')

section Runs

variable (hr : EndsNumber r) (h : Extends r c c')
include hr h

theorem digitsOnto_extends {fuel fuel' : Nat} (n : Nat) (hf : c.rest.length ≤ fuel)
    (hf' : c'.rest.length ≤ fuel') :
    ∃ m count d d', digitsOnto fuel n c = (m, count, d) ∧ digitsOnto fuel' n c' = (m, count, d') ∧
      Extends r d d' := by
  refine digits_induction hr (P := fun fuel c fuel' c' => ∀ n, ∃ m count d d',
    digitsOnto fuel n c = (m, count, d) ∧ digitsOnto fuel' n c' = (m, count, d') ∧
      Extends r d d') ?_ ?_ h hf hf' n
  · intro fuel fuel' c c' h hd hd' n
    exact ⟨n, 0, c, c', digitsOnto_of_none hd _ _, digitsOnto_of_none hd' _ _, h⟩
  · intro fuel fuel' c c' d h hd hd' ih n
    obtain ⟨m, count, e, e', he, he', hext⟩ := ih (10 * n + d)
    simp only [digitsOnto, hd, hd']
    split
    · exact ⟨n, 0, c, c', rfl, rfl, h⟩
    · rw [he, he']
      exact ⟨m, count + 1, e, e', rfl, rfl, hext⟩

theorem skipDigits_extends {fuel fuel' : Nat} (hf : c.rest.length ≤ fuel)
    (hf' : c'.rest.length ≤ fuel') :
    ∃ count d d', skipDigits fuel c = (count, d) ∧ skipDigits fuel' c' = (count, d') ∧
      Extends r d d' := by
  refine digits_induction hr (P := fun fuel c fuel' c' => ∃ count d d',
    skipDigits fuel c = (count, d) ∧ skipDigits fuel' c' = (count, d') ∧ Extends r d d')
    ?_ ?_ h hf hf'
  · intro fuel fuel' c c' h hd hd'
    exact ⟨0, c, c', skipDigits_of_none hd _, skipDigits_of_none hd' _, h⟩
  · rintro fuel fuel' c c' d h hd hd' ⟨count, e, e', he, he', hext⟩
    simp only [skipDigits, hd, hd', he, he']
    exact ⟨count + 1, e, e', rfl, rfl, hext⟩

theorem exponentOnto_extends {fuel fuel' : Nat} (n : Nat) (hf : c.rest.length ≤ fuel)
    (hf' : c'.rest.length ≤ fuel') :
    ∃ m d d', exponentOnto fuel n c = (m, d) ∧ exponentOnto fuel' n c' = (m, d') ∧
      Extends r d d' := by
  refine digits_induction hr (P := fun fuel c fuel' c' => ∀ n, ∃ m d d',
    exponentOnto fuel n c = (m, d) ∧ exponentOnto fuel' n c' = (m, d') ∧ Extends r d d')
    ?_ ?_ h hf hf' n
  · intro fuel fuel' c c' h hd hd' n
    exact ⟨some n, c, c', exponentOnto_of_none hd _ _, exponentOnto_of_none hd' _ _, h⟩
  · intro fuel fuel' c c' d h hd hd' ih n
    obtain ⟨ch, hp⟩ := digit?_eq_some hd
    simp only [exponentOnto, hd, hd']
    split
    · exact ⟨none, c.advance, c'.advance, rfl, rfl, h.advance hp⟩
    · exact ih (10 * n + d)

/-! ### Completing a number -/

omit hr in
theorem finish_follows (negative : Bool) (digits : Nat) (e : Int) :
    Follows r (finish negative digits e c) (finish negative digits e c') := by
  rintro a d hd
  unfold finish at hd ⊢
  cases hs : scaled 8 (Binary.ofNat digits) e with
  | none =>
    rw [hs] at hd
    cases hd
  | some f =>
    rw [hs] at hd
    cases hd
    exact ⟨c', rfl, h⟩

omit hr in
theorem exponentSign_extends {ch : Char} (hp : c.peek? = some ch) :
    ∃ up d d', exponentSign c = (up, d) ∧ exponentSign c' = (up, d') ∧ Extends r d d' := by
  have hp' := h.peek?_of_some hp
  unfold exponentSign
  rw [hp, hp']
  split
  · exact ⟨_, _, _, rfl, rfl, h.advance hp⟩
  · exact ⟨_, _, _, rfl, rfl, h.advance hp⟩
  · exact ⟨_, _, _, rfl, rfl, h⟩

theorem exponent_follows (negative : Bool) (digits : Nat) (e : Int) {ch : Char}
    (hp : c.peek? = some ch) :
    Follows r (exponent negative digits e c) (exponent negative digits e c') := by
  have h₁ := h.advance hp
  cases hp₁ : c.advance.peek? with
  | none =>
    -- The text ends behind the letter, so there is an error, whatever the longer text goes on with.
    have hsign : exponentSign c.advance = (true, c.advance) := by
      unfold exponentSign
      rw [hp₁]
    unfold exponent
    rw [hsign]
    simp only [hp₁]
    exact follows_failHere
  | some ch₁ =>
    obtain ⟨up, c₂, c₂', hsign, hsign', h₂⟩ := exponentSign_extends h₁ hp₁
    unfold exponent
    rw [hsign, hsign']
    cases hd : digit? c₂ with
    | none =>
      -- No digit follows the sign.
      dsimp only
      rw [hd]
      cases c₂.peek? with
      | none => exact follows_failHere
      | some ch₂ => exact follows_failNext
    | some n =>
      obtain ⟨ch₂, hp₂⟩ := digit?_eq_some hd
      have hd' := (digit?_extends hr h₂).trans hd
      have hp₂' := h₂.peek?_of_some hp₂
      obtain ⟨m, c₃, c₃', hm, hm', h₃⟩ := exponentOnto_extends hr (h₂.advance hp₂) n
        (length_advance c₂) (length_advance c₂')
      simp only [hp₂, hp₂', hd, hd', hm, hm']
      cases m with
      | some m => exact finish_follows h₃ _ _ _
      | none =>
        -- The exponent is too large to count: either the number is out of range, or it is zero and
        -- the digits that are left are skipped.
        dsimp only
        by_cases hlarge : digits ≠ 0 && up
        · rw [if_pos hlarge, if_pos hlarge]
          exact follows_failHere
        · rw [if_neg hlarge, if_neg hlarge]
          obtain ⟨count, c₄, c₄', hskip, hskip', h₄⟩ :=
            skipDigits_extends hr h₃ (Nat.le_refl _) (Nat.le_refl _)
          rw [hskip, hskip']
          exact follows_ok h₄

theorem afterDigits_follows (negative : Bool) (digits : Nat) (e : Int) :
    Follows r (afterDigits negative digits e c) (afterDigits negative digits e c') := by
  cases hp : c.peek? with
  | some ch =>
    unfold afterDigits
    rw [hp, h.peek?_of_some hp]
    split
    · exact exponent_follows hr h _ _ _ hp
    · exact exponent_follows hr h _ _ _ hp
    · exact finish_follows h _ _ _
  | none =>
    rw [afterDigits_of_atEnd (atEnd_of_none hp), afterDigits_of_atEnd (h.atEnd hr hp)]
    exact finish_follows h _ _ _

theorem fraction_follows (negative : Bool) (digits : Nat) (e : Int) {ch : Char}
    (hp : c.peek? = some ch) :
    Follows r (fraction negative digits e c) (fraction negative digits e c') := by
  obtain ⟨n, count, c₁, c₁', hn, hn', h₁⟩ := digitsOnto_extends hr (h.advance hp) digits
    (Nat.le_refl _) (Nat.le_refl _)
  have hd := digit?_extends hr h₁
  unfold fraction
  simp only [hn, hn', hd]
  cases digit? c₁ with
  | some d =>
    obtain ⟨_, c₂, c₂', hskip, hskip', h₂⟩ :=
      skipDigits_extends hr h₁ (Nat.le_refl _) (Nat.le_refl _)
    simp only [hskip, hskip']
    exact afterDigits_follows hr h₂ _ _ _
  | none =>
    -- A point has to be followed by a digit.
    dsimp only
    by_cases hcount : count = 0
    · rw [if_pos hcount]
      exact follows_failNext
    · rw [if_neg hcount, if_neg hcount]
      exact afterDigits_follows hr h₁ _ _ _

theorem longInteger_follows (negative : Bool) (digits : Nat) :
    Follows r (longInteger negative digits c) (longInteger negative digits c') := by
  obtain ⟨count, c₁, c₁', hskip, hskip', h₁⟩ :=
    skipDigits_extends hr h (Nat.le_refl _) (Nat.le_refl _)
  cases hp : c₁.peek? with
  | some ch =>
    unfold longInteger
    rw [hskip, hskip']
    dsimp only
    rw [hp, h₁.peek?_of_some hp]
    split
    · exact fraction_follows hr h₁ _ _ _ hp
    · exact afterDigits_follows hr h₁ _ _ _
  | none =>
    rw [longInteger_of_atEnd hskip (atEnd_of_none hp), longInteger_of_atEnd hskip' (h₁.atEnd hr hp)]
    exact afterDigits_follows hr h₁ _ _ _

theorem afterInteger_follows (negative : Bool) (digits : Nat) :
    Follows r (afterInteger negative digits c) (afterInteger negative digits c') := by
  cases hp : c.peek? with
  | some ch =>
    unfold afterInteger
    rw [hp, h.peek?_of_some hp]
    split
    · exact fraction_follows hr h _ _ _ hp
    · exact exponent_follows hr h _ _ _ hp
    · exact exponent_follows hr h _ _ _ hp
    · exact follows_ok h
  | none =>
    rw [afterInteger_of_atEnd (atEnd_of_none hp), afterInteger_of_atEnd (h.atEnd hr hp)]
    exact follows_ok h

/-- **Numbers end.** What is read of a number does not depend on the text behind it. -/
theorem number_follows (negative : Bool) : Follows r (number negative c) (number negative c') := by
  have hd' := digit?_extends hr h
  cases hp : c.peek? with
  | none =>
    unfold number
    rw [hp]
    exact follows_failHere
  | some ch =>
    have h₁ := h.advance hp
    unfold number
    rw [hp, h.peek?_of_some hp, hd']
    dsimp only
    cases hd : digit? c with
    | none => exact follows_failNext
    | some d =>
      cases d with
      | zero =>
        -- A number that begins with a zero has no other digit in front of the point.
        simp only [digit?_extends hr h₁]
        by_cases hmore : (digit? c.advance).isSome
        · rw [if_pos hmore]
          exact follows_failNext
        · rw [if_neg hmore, if_neg hmore]
          exact afterInteger_follows hr h₁ _ _
      | succ d =>
        obtain ⟨n, count, c₂, c₂', hn, hn', h₂⟩ := digitsOnto_extends hr h₁ (d + 1)
          (length_advance c) (length_advance c')
        simp only [hn, hn', digit?_extends hr h₂]
        -- Digits beyond those that fit into the counter are skipped.
        by_cases hmore : (digit? c₂).isSome
        · rw [if_pos hmore, if_pos hmore]
          exact longInteger_follows hr h₂ _ _
        · rw [if_neg hmore, if_neg hmore]
          exact afterInteger_follows hr h₂ _ _

end Runs

/-! ### Texts of numbers -/

/-- **A text of a number.** It is read as the number, and no character of it belongs to anything
else. -/
structure ReadsNumber (cs : List Char) (y : Float) : Prop where
  numeral : ∀ ch ∈ cs, isNumeral ch = true
  read : JsonReader.read (String.ofList cs) = .ok (.number y)

theorem not_isBlank_of_isNumeral (h : isNumeral ch = true) : isBlank ch = false := by
  cases hb : isBlank ch with
  | false => rfl
  | true =>
    simp only [isBlank, Bool.or_eq_true, beq_iff_eq] at hb
    rcases hb with ((rfl | rfl) | rfl) | rfl <;> exact absurd h (by decide)

theorem skipBlanks_of_peek? (hb : ∀ ch, c.peek? = some ch → isBlank ch = false) :
    c.skipBlanks = c := by
  obtain ⟨rest, line, column⟩ := c
  cases rest with
  | nil => rfl
  | cons ch rest =>
    have hch := hb ch rfl
    simp [skipBlanks, skipBlanksFrom, hch]

/-- What a document is that begins as a number does. -/
theorem value_of_isNumeral (hp : c.peek? = some ch) (hch : isNumeral ch = true)
    (fuel depth : Nat) :
    value (fuel + 1) depth c =
      if ch = '-' then (number true c.advance).map fun r => (.number r.1, r.2)
      else if ch.isDigit then (number false c).map fun r => (.number r.1, r.2)
      else c.failNext .expectedValue := by
  have hskip : c.skipBlanks = c := skipBlanks_of_peek? fun ch' hch' => by
    obtain rfl := Option.some.inj (hp.symm.trans hch')
    exact not_isBlank_of_isNumeral hch
  unfold value
  rw [hskip]
  dsimp only
  rw [hp]
  split
  case h_1 heq => cases heq
  case h_5 heq =>
    cases heq
    rfl
  case h_9 hminus _ _ _ heq =>
    cases heq
    rw [if_neg hminus]
  -- No number begins as words, texts and containers do.
  all_goals
    obtain rfl := Option.some.inj ‹some ch = some _›
    exact absurd hch (by decide)

/-- What is read does not depend on the text behind, for what begins as a number does. -/
theorem value_follows (hr : EndsNumber r) (h : Extends r c c') (hp : c.peek? = some ch)
    (fuel fuel' depth depth' : Nat) :
    Follows r (value (fuel + 1) depth c) (value (fuel' + 1) depth' c') := by
  have hch := h.numeral_peek? hp
  -- Making a document of the number changes nothing about where reading ends.
  have hmap {x y : Step Float} (hxy : Follows r x y) :
      Follows r (x.map fun r => (JsonValue.number r.1, r.2))
        (y.map fun r => (.number r.1, r.2)) := by
    intro a d hd
    cases x with
    | error e => cases hd
    | ok p =>
      cases hd
      obtain ⟨d', hy, hext⟩ := hxy p.1 p.2 rfl
      rw [hy]
      exact ⟨d', rfl, hext⟩
  rw [value_of_isNumeral hp hch, value_of_isNumeral (h.peek?_of_some hp) hch]
  split
  · exact hmap (number_follows hr (h.advance hp) true)
  · split
    · exact hmap (number_follows hr h false)
    · exact follows_failNext

/-- A text that is a document is read as one, to its end. -/
theorem read_eq_ok {s : String} {v : JsonValue} (h : read s = .ok v) :
    ∃ c, value (2 * s.toList.length + 2) maxDepth (start s) = .ok (v, c) ∧
      c.skipBlanks.rest = [] := by
  have hfuel : (start s).rest.length = s.toList.length := rfl
  unfold read at h
  dsimp only at h
  rw [hfuel] at h
  cases hv : value (2 * s.toList.length + 2) maxDepth (start s) with
  | error e =>
    rw [hv] at h
    cases h
  | ok p =>
    rw [hv] at h
    by_cases hend : p.2.skipBlanks.rest.isEmpty
    · have hok : (.ok p.1 : Except JsonError JsonValue) = .ok v := (if_pos hend).symm.trans h
      cases hok
      exact ⟨p.2, rfl, List.isEmpty_iff.mp hend⟩
    · have hfail : (p.2.skipBlanks.failNext .trailingText : Except JsonError JsonValue) = .ok v :=
        (if_neg hend).symm.trans h
      exact absurd hfail (failNext_ne_ok v)

theorem read_of_value {s : String} {v : JsonValue} {c : JsonCursor}
    (h : value (2 * s.toList.length + 2) maxDepth (start s) = .ok (v, c))
    (hend : c.skipBlanks.rest = []) : read s = .ok v := by
  have hfuel : (start s).rest.length = s.toList.length := rfl
  unfold read
  dsimp only
  rw [hfuel, h]
  exact if_pos (List.isEmpty_iff.mpr hend)

/-- Where blanks are skipped that a number would not have, there is nothing of the number. -/
theorem rest_of_skipBlanks (h : Extends r c c') (hend : c.skipBlanks.rest = []) :
    c'.rest = r := by
  have hskip : c.skipBlanks = c := skipBlanks_of_peek? fun ch hch =>
    not_isBlank_of_isNumeral (h.numeral_peek? hch)
  rw [h.rest, ← hskip, hend, List.nil_append]

theorem value_of_none (hp : c.peek? = none) (fuel depth : Nat) :
    value (fuel + 1) depth c = c.failNext .endInValue := by
  have hskip : c.skipBlanks = c := skipBlanks_of_peek? fun ch hch => by
    rw [hp] at hch
    cases hch
  unfold value
  rw [hskip]
  dsimp only
  rw [hp]

/-- **Numbers in their places.** A number is read where its text stands, whatever is behind it that
ends it. -/
theorem ReadsNumber.value {cs : List Char} {y : Float} (h : ReadsNumber cs y) (hr : EndsNumber r)
    (hc : c.rest = cs ++ r) (fuel depth : Nat) :
    ∃ c', JsonReader.value (fuel + 1) depth c = .ok (.number y, c') ∧ c'.rest = r := by
  obtain ⟨d, hvalue, hend⟩ := read_eq_ok h.read
  have hstart : (start (String.ofList cs)).rest = cs := String.toList_ofList
  have hext : Extends r (start (String.ofList cs)) c :=
    ⟨by rw [hc, hstart], hstart.symm ▸ h.numeral⟩
  cases hp : (start (String.ofList cs)).peek? with
  | none =>
    rw [value_of_none hp] at hvalue
    exact absurd hvalue (failNext_ne_ok _)
  | some ch =>
    obtain ⟨d', hok, hd'⟩ := value_follows hr hext hp _ fuel _ depth _ _ hvalue
    exact ⟨d', hok, rest_of_skipBlanks hd' hend⟩

end JsonReader

end ScriptLang
