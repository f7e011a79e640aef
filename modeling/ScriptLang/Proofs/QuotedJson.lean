import Mathlib.Tactic.IntervalCases
import Mathlib.Tactic.SplitIfs
import ScriptLang.Json.Writer
import ScriptLang.Proofs.NumberTexts

/-!
# Blanks and quoted texts in JSON

* `JsonCursor.rest_skipBlanks` — skipping blanks comes to what stands behind them.
* `JsonReader.textOnto_escape` — a character is read from its escape, whichever kind of escape it
  has: none, a short one, or the digits of its code point.
* `JsonReader.text_escapes` is the main statement: a text is read from the escapes of its
  characters, up to the closing quote. A quote within the text is escaped, so no other one is met
  before.
-/

namespace ScriptLang

namespace JsonCursor

variable {c : JsonCursor} {ch : Char} {b t : List Char}

/-- Characters that are blanks all. -/
def AllBlank (cs : List Char) : Prop := ∀ ch ∈ cs, isBlank ch = true

/-- A text that begins with something else than a blank. -/
def Solid (cs : List Char) : Prop := ∀ ch ∈ cs.head?, isBlank ch = false

theorem rest_skipBlanks (hc : c.rest = b ++ t) (hb : AllBlank b) (ht : Solid t) :
    c.skipBlanks.rest = t := by
  unfold skipBlanks
  rw [hc]
  clear hc
  generalize c.line = line
  generalize c.column = column
  induction b generalizing line column with
  | nil =>
    rw [List.nil_append]
    cases t with
    | nil => rfl
    | cons ch t =>
      have hch : isBlank ch = false := ht ch rfl
      simp [skipBlanksFrom, hch]
  | cons ch b ih =>
    have hch : isBlank ch = true := hb ch List.mem_cons_self
    have hrest := ih fun ch' h' => hb ch' (List.mem_cons_of_mem ch h')
    rw [List.cons_append, skipBlanksFrom, if_pos hch]
    -- Whether it ends a line only matters for the place.
    split
    · exact hrest (line + 1) 0
    · exact hrest line (column + 1)

theorem skipBlanks_skipBlanks (c : JsonCursor) : c.skipBlanks.skipBlanks = c.skipBlanks := by
  refine JsonReader.skipBlanks_of_peek? fun ch hch => ?_
  unfold skipBlanks at hch
  generalize c.line = line at hch
  generalize c.column = column at hch
  generalize c.rest = cs at hch
  induction cs generalizing line column with
  | nil => cases hch
  | cons d cs ih =>
    rw [skipBlanksFrom] at hch
    cases hd : isBlank d with
    | true =>
      rw [hd, if_pos rfl] at hch
      split at hch
      · exact ih _ _ hch
      · exact ih _ _ hch
    | false =>
      rw [hd] at hch
      cases hch
      exact hd

end JsonCursor

namespace JsonReader

open JsonCursor

variable {c : JsonCursor} {ch : Char} {r t : List Char}

/-! ### Texts -/

theorem peek?_of_rest (hc : c.rest = ch :: t) : c.peek? = some ch := by
  unfold peek?
  rw [hc]
  rfl

theorem rest_advance_of_rest (hc : c.rest = ch :: t) : c.advance.rest = t := by
  rw [rest_advance, hc, List.tail_cons]

theorem hexValue?_hexDigit {n : Nat} (hn : n < 16) :
    hexValue? (JsonWriter.hexDigit n) = some n := by
  interval_cases n <;> rfl

/-- The value of an escaped control character. -/
theorem hexEscape_control {n : Nat} (hn : n < 32)
    (hc : c.rest = '0' :: '0' :: JsonWriter.hexDigit (n / 16) ::
      JsonWriter.hexDigit (n % 16) :: t) :
    ∃ d, hexEscape c = .ok (n, d) ∧ d.rest = t := by
  have hhigh := hexValue?_hexDigit (n := n / 16) (by omega)
  have hlow := hexValue?_hexDigit (n := n % 16) (by omega)
  have hzero : hexValue? '0' = some 0 := by decide
  have hvalue : ((0 * 16 + 0) * 16 + n / 16) * 16 + n % 16 = n := by omega
  refine ⟨⟨t, c.line, c.column + 4⟩, ?_, rfl⟩
  unfold hexEscape
  rw [hc]
  dsimp only
  rw [hzero, hhigh, hlow]
  dsimp only
  rw [hvalue]

theorem codePoint_control (hch : ch.toNat < 32)
    (hc : c.rest = '0' :: '0' :: JsonWriter.hexDigit (ch.toNat / 16) ::
      JsonWriter.hexDigit (ch.toNat % 16) :: t) :
    ∃ d, codePoint c = .ok (ch, d) ∧ d.rest = t := by
  obtain ⟨d, hd, hrest⟩ := hexEscape_control hch hc
  refine ⟨d, ?_, hrest⟩
  unfold codePoint
  rw [hd]
  dsimp only [bind, Except.bind]
  rw [if_neg (by omega), if_pos (by omega), Char.ofNat_toNat]
  rfl

/-- **One character.** A character is read from its escape. -/
theorem textOnto_escape (hc : c.rest = JsonWriter.escape ch ++ t) (fuel : Nat) (done : List Char) :
    ∃ d, textOnto (fuel + 1) done c = textOnto fuel (ch :: done) d ∧ d.rest = t := by
  -- What the short escapes have in common.
  have hshort {e : Char} (hrest : c.rest = '\\' :: e :: t) (hu : e ≠ 'u')
      (he : shortEscape? e = some ch) :
      ∃ d, textOnto (fuel + 1) done c = textOnto fuel (ch :: done) d ∧ d.rest = t := by
    have hafter := rest_advance_of_rest hrest
    refine ⟨c.advance.advance, ?_, rest_advance_of_rest hafter⟩
    rw [textOnto, hrest]
    dsimp only
    rw [if_neg (by decide), if_pos rfl, hafter]
    dsimp only
    rw [if_neg hu, he]
  unfold JsonWriter.escape at hc
  split_ifs at hc with h₁ h₂ h₃ h₄ h₅ h₆ h₇ h₈
  case pos =>
    subst h₁
    exact hshort hc (by decide) rfl
  case pos =>
    subst h₂
    exact hshort hc (by decide) rfl
  case pos =>
    subst h₃
    exact hshort hc (by decide) rfl
  case pos =>
    subst h₄
    exact hshort hc (by decide) rfl
  case pos =>
    subst h₅
    exact hshort hc (by decide) rfl
  case pos =>
    subst h₆
    exact hshort hc (by decide) rfl
  case pos =>
    subst h₇
    exact hshort hc (by decide) rfl
  case pos =>
    simp only [List.cons_append, List.nil_append] at hc
    have hafter := rest_advance_of_rest hc
    obtain ⟨d, hd, hrest⟩ := codePoint_control h₈ (rest_advance_of_rest hafter)
    refine ⟨d, ?_, hrest⟩
    rw [textOnto, hc]
    dsimp only
    rw [if_neg (by decide), if_pos rfl, hafter]
    dsimp only
    rw [if_pos rfl, hd]
  case neg =>
    refine ⟨c.advance, ?_, rest_advance_of_rest hc⟩
    rw [textOnto, hc]
    dsimp only [List.cons_append]
    rw [if_neg h₁, if_neg h₂, if_neg h₈]

/-- The characters of a text, from any of them on. -/
theorem textOnto_escapes (cs done : List Char) {fuel : Nat} (hf : cs.length < fuel)
    (hc : c.rest = cs.flatMap JsonWriter.escape ++ '"' :: t) :
    ∃ d, textOnto fuel done c = .ok (String.ofList (done.reverse ++ cs), d) ∧ d.rest = t := by
  induction cs generalizing done fuel c with
  | nil =>
    obtain ⟨fuel, rfl⟩ := Nat.exists_eq_succ_of_ne_zero (Nat.ne_of_gt hf)
    rw [List.flatMap_nil, List.nil_append] at hc
    refine ⟨c.advance, ?_, rest_advance_of_rest hc⟩
    rw [textOnto, hc]
    dsimp only
    rw [if_pos rfl, List.append_nil]
  | cons ch cs ih =>
    obtain ⟨fuel, rfl⟩ := Nat.exists_eq_succ_of_ne_zero (Nat.ne_of_gt (Nat.zero_lt_of_lt hf))
    rw [List.flatMap_cons, List.append_assoc] at hc
    obtain ⟨d, hstep, hd⟩ := textOnto_escape hc fuel done
    obtain ⟨d', hread, hd'⟩ := ih (ch :: done) (Nat.lt_of_succ_lt_succ hf) hd
    refine ⟨d', ?_, hd'⟩
    rw [hstep, hread, List.reverse_cons, List.append_assoc]
    rfl

theorem length_le_length_escapes (cs : List Char) :
    cs.length ≤ (cs.flatMap JsonWriter.escape).length := by
  induction cs with
  | nil => exact Nat.le_refl _
  | cons ch cs ih =>
    have hpos : 0 < (JsonWriter.escape ch).length := by
      unfold JsonWriter.escape
      split_ifs <;> simp
    rw [List.flatMap_cons, List.length_append, List.length_cons]
    omega

/-- **Texts.** A text is read from its escapes, up to its closing quote. -/
theorem text_escapes (s : String)
    (hc : c.rest = s.toList.flatMap JsonWriter.escape ++ '"' :: t) :
    ∃ d, text c = .ok (s, d) ∧ d.rest = t := by
  have hfuel : s.toList.length < c.rest.length + 1 := by
    have hlength := length_le_length_escapes s.toList
    rw [hc, List.length_append]
    omega
  obtain ⟨d, hd, hrest⟩ := textOnto_escapes s.toList [] hfuel hc
  refine ⟨d, ?_, hrest⟩
  rw [text, hd, List.reverse_nil, List.nil_append, String.ofList_toList]

end JsonReader

end ScriptLang
