import ScriptLang.Proofs.LocatedTrees
import ScriptLang.Proofs.Steady

/-!
# Parsers use tokens up

A parser has a bound on its depth, and what keeps it from meeting the bound is that it uses tokens
up. The tokens that it can use are those up to the first `eof` token, on which the cursor stays.

* `Cursor.left` is the number of tokens before the first `eof` token. `Cursor.Moves` says that a
  cursor is moved by some number of tokens at least and not past that token.
* A `Reading` is a class of tokens. `Reading.Holds` says that a cursor comes upon no others, and
  `Reading.place` is the location of such a token.
* `Parser.Advances` is the judgement about parsers. It says at once how many tokens a parser uses up
  if it succeeds, how many there have to be before it can meet the bound, at which tokens it stops,
  and what its result is like. These belong together: that the second of two parsers is not handed
  too many tokens is known because the first one has used some.

The precondition of the judgement is what has been seen at the cursor; `advance` needs it, since it
uses a token up only if that is not the `eof` token. Mostly it is forgotten by the next parser. What
is remembered is that the cursor is not before a place (`Cursor.NotBefore`): this is how many calls
that nothing guards are inside of each other, for each of them has used a token up.
-/

namespace ScriptLang

/-! ### Tokens that are left -/

namespace Cursor

/-- The number of tokens from the cursor to the first `eof` token. -/
def left (c : Cursor) : Nat :=
  ((c.tokens.toList.drop c.position).takeWhile (·.kind != .eof)).length

theorem current_eq (c : Cursor) :
    c.current = ((c.tokens.toList.drop c.position).head?).getD c.last := by
  simp [current, peek, Array.getD_eq_getD_getElem?, List.head?_drop]

/-- At another token, that one is left and those after it. -/
theorem left_succ {c : Cursor} (hlast : c.last.kind = .eof) (h : c.atEnd = false) :
    ({ c with position := c.position + 1 } : Cursor).left + 1 = c.left := by
  unfold atEnd at h
  unfold left
  rw [current_eq] at h
  cases hd : c.tokens.toList.drop c.position with
  | nil =>
    -- Behind the tokens the cursor shows the last one, an `eof` token.
    rw [hd] at h
    simp [hlast] at h
  | cons t ts =>
    rw [hd] at h
    have ht : t.kind ≠ .eof := by simpa using h
    have hts : c.tokens.toList.drop (c.position + 1) = ts := by
      rw [← List.drop_drop, hd]
      rfl
    simp [hts, ht]

/-- **Moves.** The cursor has moved by `n` tokens or more, and not past the first `eof` token. -/
structure Moves (n : Nat) (c c' : Cursor) : Prop extends c.Leads c' where
  stop : c'.position + c'.left = c.position + c.left
  spent : c'.left + n ≤ c.left

namespace Moves

variable {c c₁ c₂ : Cursor} {n k : Nat}

theorem refl (c : Cursor) : Moves 0 c c := ⟨.refl c, rfl, Nat.le_refl _⟩

theorem trans (h : Moves n c c₁) (h' : Moves (k - n) c₁ c₂) : Moves k c c₂ := by
  refine ⟨h.toLeads.trans h'.toLeads, h'.stop.trans h.stop, ?_⟩
  have := h.spent
  have := h'.spent
  omega

theorem mono (h : Moves n c c₁) (hk : k ≤ n) : Moves k c c₁ :=
  ⟨h.toLeads, h.stop, Nat.le_trans (Nat.add_le_add_left hk _) h.spent⟩

/-- A cursor that has moved by so many tokens is that much further. -/
theorem position_le (h : Moves n c c₁) : c.position + n ≤ c₁.position := by
  have := h.stop
  have := h.spent
  omega

end Moves

/-- The cursor is at a place or past it. -/
def NotBefore (i : Nat) (c : Cursor) : Prop := i ≤ c.position

theorem moves_advance {c : Cursor} (hlast : c.last.kind = .eof) (h : c.atEnd = false) :
    Moves 1 c c.advance := by
  have hleft := left_succ hlast h
  have hadvance : c.advance = { c with position := c.position + 1 } := by simp [advance, h]
  refine ⟨c.leads_advance, ?_, ?_⟩
  · rw [hadvance]
    dsimp only
    omega
  · rw [hadvance]
    exact Nat.le_of_eq hleft

/-- Advancing uses a token up, or the cursor stays at the end. -/
theorem moves_advance_zero {c : Cursor} (hlast : c.last.kind = .eof) : Moves 0 c c.advance := by
  cases h : c.atEnd with
  | true =>
    rw [advance_of_atEnd h]
    exact .refl c
  | false => exact (moves_advance hlast h).mono (Nat.zero_le 1)

end Cursor

/-! ### Readings -/

/-- Tokens that may be read. -/
structure Reading where
  tokens : Token → Prop

namespace Reading

variable {R : Reading} {c c' : Cursor}

/-- The location of one of the tokens. -/
def place (R : Reading) (loc : Location) : Prop := ∃ t, R.tokens t ∧ t.location = loc

/-- The tokens before the cursor, up to the first `eof` token, are among those of the reading. -/
structure Holds (R : Reading) (c : Cursor) : Prop where
  last : c.last.kind = .eof
  ahead : ∀ i ≤ c.left, R.tokens (c.peek i)

theorem Holds.current (h : R.Holds c) : R.tokens c.current := h.ahead 0 (Nat.zero_le _)

theorem Holds.moves {n : Nat} (h : R.Holds c) (hm : c.Moves n c') : R.Holds c' := by
  refine ⟨hm.last ▸ h.last, fun i hi => ?_⟩
  -- What is ahead of the second cursor was ahead of the first one, further away.
  obtain ⟨j, hj⟩ := Nat.exists_eq_add_of_le hm.position
  have hstop := hm.stop
  have hpeek : c'.peek i = c.peek (j + i) := by
    unfold Cursor.peek
    rw [hm.tokens, hm.last, hj, Nat.add_assoc]
  rw [hpeek]
  exact h.ahead _ (by omega)

end Reading

/-! ### The judgement -/

namespace Parser

variable {α β : Type} {R : Reading} {P P' : Cursor → Prop} {r n k : Nat} {p : α → Prop}
  {q : β → Prop} {x : Parser α} {f : α → Parser β}

/-- How a parser may end that was started at a cursor. -/
def Ends (R : Reading) (c : Cursor) (r n : Nat) (p : α → Prop) : Except Stop (α × Cursor) → Prop
  | .ok (a, c') => c.Moves n c' ∧ p a
  | .error (.fault _ t _) => R.tokens t
  | .error .exhausted => r ≤ c.left
  | .error .overflow => False
  | .error .outOfStack =>
    ∃ start depth, c.platform.fits start depth = false ∧ start + depth ≤ c.position + c.left

/-- **Advances.** Where `P` holds, the parser uses up `n` tokens or more if it succeeds, and its
result is as said. If it stops at a token, that is one of the reading, and it does not meet its
bound where less than `r` tokens are left. If the stack is used up, it does not hold some number of
calls inside of each other that is no larger than that of the tokens that are left. -/
def Advances (R : Reading) (P : Cursor → Prop) (r n : Nat) (x : Parser α) (p : α → Prop) : Prop :=
  ∀ c, R.Holds c → P c → Ends R c r n p (x c)

namespace Advances

/-- Less may be said of a parser. -/
theorem mono {r' : Nat} {p' : α → Prop} (hx : Advances R P r n x p) (hr : r' ≤ r) (hk : k ≤ n)
    (hP : ∀ c, P' c → P c) (hp : ∀ a, p a → p' a) : Advances R P' r' k x p' := by
  intro c hc hPc
  have h := hx c hc (hP c hPc)
  cases e : x c with
  | ok ac =>
    rw [e] at h
    exact ⟨h.1.mono hk, hp _ h.2⟩
  | error stop =>
    rw [e] at h
    cases stop with
    | fault f t => exact h
    | exhausted => exact Nat.le_trans hr h
    | overflow => exact h
    | outOfStack => exact h

theorem le {r' : Nat} (hx : Advances R P r n x p) (hr : r' ≤ r) : Advances R P r' n x p :=
  hx.mono hr (Nat.le_refl _) (fun _ h => h) fun _ h => h

/-- The use of tokens does not matter. -/
theorem zero (hx : Advances R P r n x p) : Advances R P r 0 x p :=
  hx.mono (Nat.le_refl _) (Nat.zero_le _) (fun _ h => h) fun _ h => h

/-- What has been seen does not matter. -/
theorem anywhere (hx : Advances R (fun _ => True) r n x p) : Advances R P r n x p :=
  hx.mono (Nat.le_refl _) (Nat.le_refl _) (fun _ _ => trivial) fun _ h => h

end Advances

/-! ### Rules -/

theorem advances_pure {a : α} (h : p a) : Advances R P r 0 (pure a) p :=
  fun c _ _ => ⟨.refl c, h⟩

theorem advances_fail {fault : GrammarFault} {t : Token} (ht : R.tokens t) :
    Advances R P r n (fail fault t) p := fun _ _ _ => ht

/-- Nothing is claimed of a parser without any depth. -/
theorem advances_exhausted : Advances R P 0 n (exhausted : Parser α) p :=
  fun _ _ _ => Nat.zero_le _

/-- One parser after the other. The second one is handed fewer tokens by those that the first one
has used up, that many fewer have to be used up still, and the cursor is that much further. -/
theorem advances_bind_from {i : Nat} (hi : ∀ c, P c → c.NotBefore i) (hx : Advances R P r n x p)
    (hf : ∀ a, p a → Advances R (Cursor.NotBefore (i + n)) (r - n) (k - n) (f a) q) :
    Advances R P r k (x >>= f) q := by
  intro c hc hP
  have h := hx c hc hP
  change Ends R c r k q (Except.bind (x c) fun ac => f ac.1 ac.2)
  cases e : x c with
  | error stop =>
    rw [e] at h
    cases stop with
    | fault g t => exact h
    | exhausted => exact h
    | overflow => exact h
    | outOfStack => exact h
  | ok ac =>
    obtain ⟨a, c₁⟩ := ac
    rw [e] at h
    obtain ⟨hm, ha⟩ := h
    have hposition : c₁.NotBefore (i + n) :=
      Nat.le_trans (Nat.add_le_add_right (hi c hP) n) hm.position_le
    have h' := hf a ha c₁ (hc.moves hm) hposition
    change Ends R c r k q (f a c₁)
    cases e' : f a c₁ with
    | ok bc =>
      rw [e'] at h'
      exact ⟨hm.trans h'.1, h'.2⟩
    | error stop =>
      rw [e'] at h'
      cases stop with
      | fault g t => exact h'
      | exhausted =>
        -- The bound was met with `r - n` tokens left, after `n` had been used up.
        have hleft : r - n ≤ c₁.left := h'
        have hspent := hm.spent
        show r ≤ c.left
        omega
      | overflow => exact h'
      | outOfStack =>
        obtain ⟨start, depth, hfits, hle⟩ := h'
        exact ⟨start, depth, hm.platform ▸ hfits, hm.stop ▸ hle⟩

/-- One parser after the other, wherever the cursor is then. -/
theorem advances_bind_sub (hx : Advances R P r n x p)
    (hf : ∀ a, p a → Advances R (fun _ => True) (r - n) (k - n) (f a) q) :
    Advances R P r k (x >>= f) q :=
  advances_bind_from (fun _ _ => Nat.zero_le _) hx fun a ha => (hf a ha).anywhere

/-- What follows a parser that may use up nothing. -/
theorem advances_bind (hx : Advances R P r 0 x p)
    (hf : ∀ a, p a → Advances R (fun _ => True) r n (f a) q) : Advances R P r n (x >>= f) q :=
  advances_bind_sub hx hf

/-- What follows a value that is there already. -/
theorem advances_with {a : α} (h : Advances R P r n (f a) q) :
    Advances R P r n (pure a >>= f) q :=
  h

/-- What follows a parser that uses a token up. -/
theorem advances_after (hx : Advances R P r 1 x p)
    (hf : ∀ a, p a → Advances R (fun _ => True) (r - 1) 0 (f a) q) :
    Advances R P r 1 (x >>= f) q :=
  advances_bind_sub hx hf

/-- What follows a parser that uses a token up, where that does not matter any more. -/
theorem advances_past (hx : Advances R P r 1 x p)
    (hf : ∀ a, p a → Advances R (fun _ => True) (r - 1) 0 (f a) q) :
    Advances R P r 0 (x >>= f) q := (advances_after hx hf).zero

theorem advances_ite {b : Prop} [Decidable b] {y : Parser α} (hx : b → Advances R P r n x p)
    (hy : ¬ b → Advances R P r n y p) : Advances R P r n (if b then x else y) p := by
  split
  · exact hx ‹_›
  · exact hy ‹_›

/-! ### Looking -/

/-- What follows a look at the cursor knows what was seen. -/
theorem advances_look {g : Cursor → α}
    (hf : ∀ a, Advances R (fun c => P c ∧ g c = a) r n (f a) q) :
    Advances R P r n (look g >>= f) q :=
  fun c hc hP => hf (g c) c hc ⟨hP, rfl⟩

/-- What follows a look at the current token, and what has been seen before. -/
theorem advances_current_and {f : Token → Parser β}
    (hf : ∀ t, R.tokens t → Advances R (fun c => P c ∧ c.current = t) r n (f t) q) :
    Advances R P r n (current >>= f) q :=
  fun c hc hP => hf c.current hc.current c hc ⟨hP, rfl⟩

/-- What follows a look at the current token. -/
theorem advances_current {f : Token → Parser β}
    (hf : ∀ t, R.tokens t → Advances R (fun c => c.current = t) r n (f t) q) :
    Advances R P r n (current >>= f) q :=
  fun c hc _ => hf c.current hc.current c hc rfl

theorem advances_locate {t : Token} (ht : R.tokens t) :
    Advances R P r 0 (locate t) R.place :=
  advances_pure ⟨t, ht, rfl⟩

/-- A call that nothing guards. There is one inside of another one for each token that was used up
since the outermost one. -/
theorem advances_enter {start depth : Nat} (hP : ∀ c, P c → c.NotBefore (start + depth)) :
    Advances R P r 0 (enter start depth) fun _ => True := by
  intro c hc hPc
  rw [enter_apply]
  split
  case isTrue => exact ⟨.refl c, trivial⟩
  case isFalse hfits =>
    exact ⟨start, depth, by simpa using hfits, Nat.le_trans (hP c hPc) (Nat.le_add_right _ _)⟩

theorem advances_failHere {fault : GrammarFault} :
    Advances R P r n (failHere fault : Parser α) p :=
  advances_current fun _ ht => advances_fail ht

/-! ### Consuming -/

/-- A token that is not the `eof` token is used up. -/
theorem advances_advance (h : ∀ c, P c → c.atEnd = false) :
    Advances R P r 1 advance R.tokens :=
  fun c hc hP => ⟨Cursor.moves_advance hc.last (h c hP), hc.current⟩

theorem advances_advance_zero : Advances R P r 0 advance R.tokens :=
  fun _ hc _ => ⟨Cursor.moves_advance_zero hc.last, hc.current⟩

/-- The current token is of a kind other than `eof`. -/
theorem atEnd_of_current {c : Cursor} {t : Token} (hc : c.current = t) (ht : t.kind ≠ .eof) :
    c.atEnd = false := by
  unfold Cursor.atEnd
  rw [hc]
  simpa using ht

/-- The current token is used up, unless it is the `eof` token. -/
theorem advances_take {t : Token} (ht : t.kind ≠ .eof) :
    Advances R (fun c => c.current = t) r 1 advance R.tokens :=
  advances_advance fun _ hc => atEnd_of_current hc ht

theorem eatIf_apply (test : Cursor → Bool) (c : Cursor) :
    eatIf test c = .ok (test c, if test c = true then c.advance else c) := by
  change (if test c = true then _ else _ : Parser Bool) c = _
  cases test c <;> rfl

/-- A token that is eaten is used up. -/
theorem advances_eatIf_from {i : Nat} {test : Cursor → Bool} {y z : Parser β}
    (hi : ∀ c, P c → c.NotBefore i) (htest : ∀ c : Cursor, test c = true → c.atEnd = false)
    (hy : Advances R (Cursor.NotBefore (i + 1)) (r - 1) 0 y q)
    (hz : Advances R (Cursor.NotBefore i) r n z q) (hn : n ≤ 1) :
    Advances R P r n (eatIf test >>= fun b => if b = true then y else z) q := by
  intro c hc hP
  cases hb : test c with
  | true =>
    -- Eating is then advancing, from a cursor that is known not to be at the end.
    have h : Advances R (fun c => c.NotBefore i ∧ test c = true) r 1 (advance >>= fun _ => y) q :=
      advances_bind_from (fun _ hc => hc.1) (advances_advance fun c hc => htest c hc.2)
        fun _ _ => hy
    have heat : (eatIf test >>= fun b => if b = true then y else z) c =
        (advance >>= fun _ => y) c := by
      change (eatIf test c).bind _ = _
      rw [eatIf_apply, hb]
      rfl
    rw [heat]
    exact h.mono (Nat.le_refl _) hn (fun _ h => h) (fun _ h => h) c hc ⟨hi c hP, hb⟩
  | false =>
    have heat : (eatIf test >>= fun b => if b = true then y else z) c = z c := by
      change (eatIf test c).bind _ = _
      rw [eatIf_apply, hb]
      rfl
    rw [heat]
    exact hz c hc (hi c hP)

/-- A token that is eaten is used up, wherever the cursor is then. -/
theorem advances_eatIf {test : Cursor → Bool} {y z : Parser β}
    (htest : ∀ c : Cursor, test c = true → c.atEnd = false)
    (hy : Advances R (fun _ => True) (r - 1) 0 y q) (hz : Advances R (fun _ => True) r n z q)
    (hn : n ≤ 1) : Advances R P r n (eatIf test >>= fun b => if b = true then y else z) q :=
  advances_eatIf_from (fun _ _ => Nat.zero_le _) htest hy.anywhere hz.anywhere hn

/-- Eating for its own sake. -/
theorem advances_eatIf_any (test : Cursor → Bool) :
    Advances R P r 0 (eatIf test) fun _ => True := by
  refine advances_look fun b => advances_ite (fun _ => ?_) fun _ => advances_pure trivial
  exact advances_bind advances_advance_zero fun _ _ => advances_pure trivial

theorem atEnd_of_check {c : Cursor} {kind : TokenKind} (hk : kind ≠ .eof)
    (hc : c.check kind = true) : c.atEnd = false := by
  have h : c.current.kind = kind := by simpa [Cursor.check] using hc
  exact atEnd_of_current rfl (by rwa [h])

theorem atEnd_of_checkKeyword {c : Cursor} {word : String} (hc : c.checkKeyword word = true) :
    c.atEnd = false := by
  have h : c.current.kind = .keyword ∧ c.current.value = word := by
    simpa [Cursor.checkKeyword, Token.isKeyword, Token.is] using hc
  exact atEnd_of_current rfl (by simp [h.1])

theorem atEnd_of_checkOperator {c : Cursor} {symbol : String}
    (hc : c.checkOperator symbol = true) : c.atEnd = false := by
  have h : c.current.kind = .operator ∧ c.current.value = symbol := by
    simpa [Cursor.checkOperator, Token.isOperator, Token.is] using hc
  exact atEnd_of_current rfl (by simp [h.1])

section Marks

variable {y z : Parser β} (hy : Advances R (fun _ => True) (r - 1) 0 y q)
  (hz : Advances R (fun _ => True) r n z q) (hn : n ≤ 1)
include hy hz hn

theorem advances_eat {kind : TokenKind} (hk : kind ≠ .eof) :
    Advances R P r n (eat kind >>= fun b => if b = true then y else z) q :=
  advances_eatIf (fun _ => atEnd_of_check hk) hy hz hn

theorem advances_eatWord (word : String) :
    Advances R P r n (eatWord word >>= fun b => if b = true then y else z) q :=
  advances_eatIf (fun _ => atEnd_of_checkKeyword) hy hz hn

theorem advances_eatOperator (symbol : String) :
    Advances R P r n (eatOperator symbol >>= fun b => if b = true then y else z) q :=
  advances_eatIf (fun _ => atEnd_of_checkOperator) hy hz hn

end Marks

theorem advances_expect {kind : TokenKind} (hk : kind ≠ .eof) (clause : Clause) :
    Advances R P r 1 (expect kind clause) R.tokens := by
  refine advances_current fun t ht => advances_ite (fun h => ?_) fun _ => advances_fail ht
  exact advances_take (h ▸ hk)

theorem advances_expectText {kind : TokenKind} (hk : kind ≠ .eof) (text : String)
    (clause : Clause) : Advances R P r 1 (expectText kind text clause) R.tokens := by
  refine advances_current fun t ht => advances_ite (fun h => ?_) fun _ => advances_fail ht
  have hkind : t.kind = kind := by simp_all [Token.is]
  exact advances_take (hkind ▸ hk)

theorem advances_expectWords (words : List String) (clause : Clause) :
    Advances R P r 1 (expectWords words clause) R.tokens := by
  refine advances_current fun t ht => advances_ite (fun h => ?_) fun _ => advances_fail ht
  exact advances_take (by simp [h.1])

theorem advances_expectWord (word : String) (clause : Clause) :
    Advances R P r 1 (expectWord word clause) R.tokens := advances_expectWords _ _

theorem advances_expectName (clause : Clause) :
    Advances R P r 1 (expectName clause) R.tokens := by
  refine advances_current fun t ht => advances_ite (fun h => ?_) fun _ => advances_fail ht
  exact advances_take (by simp [h])

end Parser

end ScriptLang
