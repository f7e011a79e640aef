import ScriptLang.Proofs.Stretches
import ScriptLang.Proofs.ParserProgress

/-!
# What a parser reads from where to where

* An `Input` is a closed list of tokens: there is an `eof` token to stop at. `Cursor.token` and
  `Cursor.place` are the tokens of a list and their locations.
* `Parser.Spans` is the judgement about parsers. Started at a place of an input, a parser ends at a
  place that is not past the first `eof` token, and its result is as said of that place. If it stops
  with a fault, that is at a token that has been consumed or that the cursor is on. Nothing is said
  of a parser that the platform stops.

The judgement is about one place, so its rules follow a parser token by token, from the place `i` to
the place `i + 1`, and the token at hand is always `b.token i`.
-/

namespace ScriptLang

namespace Cursor

/-- The token at a place, or the last one. -/
def token (c : Cursor) (i : Nat) : Token := c.tokens.getD i c.last

/-- The location of the token at a place. -/
def place (c : Cursor) (i : Nat) : Location := (c.token i).location

@[simp] theorem current_movedTo (c : Cursor) (i : Nat) : (c.movedTo i).current = c.token i := rfl

end Cursor

/-- A list of tokens with an `eof` token in it. -/
structure Input extends Cursor where
  closed : last.kind = .eof
  ends : toCursor.stop < tokens.size

namespace Input

/-- The input of a list of tokens. -/
def ofTokens (platform : Platform) (tokens : List Token) (file : String) : Input :=
  ⟨Cursor.ofTokens platform tokens file, Cursor.last_ofTokens, Cursor.stop_lt_size⟩

variable {b : Input} {i : Nat}

/-- At the place where the input stops there is an `eof` token. -/
theorem kind_stop (b : Input) : (b.token b.stop).kind = .eof := by
  have h : (b.tokens.toList.get ⟨b.stop, b.ends⟩).kind == .eof :=
    List.findIdx_getElem (p := fun t : Token => t.kind == .eof) (w := b.ends)
  simpa [Cursor.token, b.ends] using h

/-- Another token than an `eof` token is before the place where the input stops. -/
theorem lt_stop (hi : i ≤ b.stop) (h : (b.token i).kind ≠ .eof) : i < b.stop := by
  refine Nat.lt_of_le_of_ne hi fun heq => h ?_
  rw [heq]
  exact b.kind_stop

/-- A place that is not past the end has a token. -/
theorem getElem?_token (hi : i ≤ b.stop) : b.tokens[i]? = some (b.token i) := by
  have hlt : i < b.tokens.size := Nat.lt_of_le_of_lt hi b.ends
  simp [Cursor.token, hlt]

theorem atEnd_movedTo : (b.movedTo i).atEnd = ((b.token i).kind == .eof) := rfl

theorem advance_movedTo (h : (b.token i).kind ≠ .eof) :
    (b.movedTo i).advance = b.movedTo (i + 1) := by
  have hend : ¬ (b.movedTo i).atEnd = true := by simpa [atEnd_movedTo] using h
  rw [Cursor.advance, if_neg hend]
  rfl

end Input

namespace Parser

variable {α β : Type} {b : Input} {i n : Nat} {p : Nat → α → Prop} {q : Nat → β → Prop}
  {x y : Parser α} {f : α → Parser β}

/-! ### The judgement -/

/-- How a parser may end that was started at place `i`. -/
def Lands (b : Input) (i : Nat) (p : Nat → α → Prop) : Except Stop (α × Cursor) → Prop
  | .ok (a, c) => ∃ j, i ≤ j ∧ j ≤ b.stop ∧ c = b.movedTo j ∧ p j a
  | .error (.fault _ t consumed) =>
    i ≤ consumed.val ∧ consumed.val ≤ b.stop ∧ ∃ n ≤ consumed.val, b.tokens[n]? = some t
  | .error _ => True

/-- **Spans.** From the place `i` of the input, the parser reads up to a place `j` where `p j` holds
of its result, or there is a fault at a token that is not ahead of the cursor. -/
def Spans (b : Input) (i : Nat) (x : Parser α) (p : Nat → α → Prop) : Prop :=
  i ≤ b.stop → Lands b i p (x (b.movedTo i))

theorem Spans.mono {p' : Nat → α → Prop} (hx : Spans b i x p)
    (h : ∀ j a, i ≤ j → p j a → p' j a) : Spans b i x p' := by
  intro hi
  have hlands := hx hi
  generalize x (b.movedTo i) = r at hlands
  cases r with
  | ok ac =>
    obtain ⟨j, hij, hj, hc, ha⟩ := hlands
    exact ⟨j, hij, hj, hc, h j ac.1 hij ha⟩
  | error stop => cases stop <;> exact hlands

/-! ### Rules -/

theorem spans_pure {a : α} (h : p i a) : Spans b i (pure a) p :=
  fun hi => ⟨i, Nat.le_refl i, hi, rfl, h⟩

/-- A fault at a token that has been read, or at the one at hand. -/
theorem spans_fail {fault : GrammarFault} (hn : n ≤ i) :
    Spans b i (fail fault (b.token n) : Parser α) p := by
  intro hi
  have hval : (Ghost.of (b.movedTo i).position).val = i := Ghost.val_of i
  refine ⟨Nat.le_of_eq hval.symm, hval.symm ▸ hi, n, hval.symm ▸ hn, ?_⟩
  exact Input.getElem?_token (Nat.le_trans hn hi)

theorem spans_exhausted : Spans b i (exhausted : Parser α) p := fun _ => trivial

/-- One parser after the other, from where the first one has read up to. -/
theorem spans_bind (hx : Spans b i x p)
    (hf : ∀ j a, i ≤ j → p j a → Spans b j (f a) q) : Spans b i (x >>= f) q := by
  intro hi
  have h := hx hi
  change Lands b i q (Except.bind (x (b.movedTo i)) fun ac => f ac.1 ac.2)
  generalize x (b.movedTo i) = r at h
  cases r with
  | error stop => cases stop <;> exact h
  | ok ac =>
    obtain ⟨a, c⟩ := ac
    obtain ⟨j, hij, hj, rfl, ha⟩ := h
    have h' := hf j a hij ha hj
    change Lands b i q (f a (b.movedTo j))
    generalize f a (b.movedTo j) = r at h'
    -- What is read or consumed from `j` on is read or consumed from `i` on.
    cases r with
    | ok bc =>
      obtain ⟨k, hjk, hk⟩ := h'
      exact ⟨k, Nat.le_trans hij hjk, hk⟩
    | error stop =>
      cases stop with
      | fault g t consumed => exact ⟨Nat.le_trans hij h'.1, h'.2⟩
      | exhausted | overflow | outOfStack => trivial

/-- What follows a value that is there already. -/
theorem spans_with {a : α} (h : Spans b i (f a) q) : Spans b i (pure a >>= f) q := h

theorem spans_ite {c : Prop} [Decidable c] (hx : c → Spans b i x p) (hy : ¬ c → Spans b i y p) :
    Spans b i (if c then x else y) p := by
  split
  · exact hx ‹_›
  · exact hy ‹_›

/-- What follows a call that the stack may not hold. -/
theorem spans_enter {start depth : Nat} {f : Unit → Parser β} (hf : Spans b i (f ()) q) :
    Spans b i (enter start depth >>= f) q := by
  refine spans_bind (p := fun j _ => j = i) (fun hi => ?_) ?_
  · rw [enter_apply]
    split
    · exact ⟨i, Nat.le_refl i, hi, rfl, rfl⟩
    · trivial
  · rintro _ _ - rfl
    exact hf

/-! ### Looking -/

/-- What follows a look at the cursor. -/
theorem spans_look {g : Cursor → α} (hf : Spans b i (f (g (b.movedTo i))) q) :
    Spans b i (look g >>= f) q := hf

/-- What follows a look at the current token. -/
theorem spans_current {f : Token → Parser β} (hf : Spans b i (f (b.token i)) q) :
    Spans b i (current >>= f) q := hf

theorem spans_locate {f : Location → Parser β} (hf : Spans b i (f (b.place n)) q) :
    Spans b i (locate (b.token n) >>= f) q := hf

theorem spans_failHere {fault : GrammarFault} : Spans b i (failHere fault : Parser α) p :=
  spans_current (spans_fail (Nat.le_refl i))

/-! ### Consuming -/

/-- The token at hand is what was read, and the place is the next one. -/
def Took (b : Input) (i : Nat) (j : Nat) (t : Token) : Prop := j = i + 1 ∧ t = b.token i

theorem spans_take (h : (b.token i).kind ≠ .eof) : Spans b i advance (Took b i) :=
  fun hi => ⟨i + 1, Nat.le_succ i, Input.lt_stop hi h, Input.advance_movedTo h, rfl, rfl⟩

/-- What follows a parser that takes the token at hand. -/
theorem spans_after {x : Parser Token} {f : Token → Parser β} (hx : Spans b i x (Took b i))
    (hf : Spans b (i + 1) (f (b.token i)) q) : Spans b i (x >>= f) q := by
  refine spans_bind hx ?_
  rintro _ _ - ⟨rfl, rfl⟩
  exact hf

/-- A token that is not the `eof` token is consumed. -/
theorem spans_advance {f : Token → Parser β} (h : (b.token i).kind ≠ .eof)
    (hf : Spans b (i + 1) (f (b.token i)) q) : Spans b i (advance >>= f) q :=
  spans_after (spans_take h) hf

/-- Eating is advancing or doing nothing. -/
theorem spans_eatIf {test : Cursor → Bool} {y z : Parser β}
    (htest : ∀ c : Cursor, test c = true → c.atEnd = false)
    (hy : test (b.movedTo i) = true → Spans b (i + 1) y q) (hz : Spans b i z q) :
    Spans b i (eatIf test >>= fun r => if r = true then y else z) q := by
  cases hb : test (b.movedTo i) with
  | true =>
    have hkind : (b.token i).kind ≠ .eof := by simpa [Input.atEnd_movedTo] using htest _ hb
    intro hi
    change Lands b i q ((eatIf test (b.movedTo i)).bind _)
    rw [eatIf_apply, hb]
    exact spans_advance (f := fun _ => y) hkind (hy hb) hi
  | false =>
    intro hi
    change Lands b i q ((eatIf test (b.movedTo i)).bind _)
    rw [eatIf_apply, hb]
    exact hz hi

section Marks

variable {y z : Parser β} (hy : Spans b (i + 1) y q) (hz : Spans b i z q)
include hy hz

theorem spans_eat {kind : TokenKind} (hk : kind ≠ .eof) :
    Spans b i (eat kind >>= fun r => if r = true then y else z) q := by
  refine spans_eatIf (fun c hc => atEnd_of_current rfl ?_) (fun _ => hy) hz
  have h : c.current.kind = kind := by simpa [Cursor.check] using hc
  rwa [h]

theorem spans_eatOperator (symbol : String) :
    Spans b i (eatOperator symbol >>= fun r => if r = true then y else z) q := by
  refine spans_eatIf (fun c hc => atEnd_of_current rfl ?_) (fun _ => hy) hz
  exact Grammar.kind_of_isOperator hc

theorem spans_eatWord (word : String) :
    Spans b i (eatWord word >>= fun r => if r = true then y else z) q := by
  refine spans_eatIf (fun c hc => atEnd_of_current rfl ?_) (fun _ => hy) hz
  exact Grammar.kind_of_isKeyword hc

end Marks

/-- Eating for its own sake. -/
theorem spans_eatIf_any {test : Cursor → Bool}
    (htest : ∀ c : Cursor, test c = true → c.atEnd = false) :
    Spans b i (eatIf test) fun j r => j = if r = true then i + 1 else i := by
  intro hi
  rw [eatIf_apply]
  split
  case isTrue h =>
    have hkind : (b.token i).kind ≠ .eof := by simpa [Input.atEnd_movedTo] using htest _ h
    exact ⟨i + 1, Nat.le_succ i, Input.lt_stop hi hkind, Input.advance_movedTo hkind,
      (if_pos h).symm⟩
  case isFalse h => exact ⟨i, Nat.le_refl i, hi, rfl, (if_neg h).symm⟩

theorem spans_eatArrow :
    Spans b i (eatOperator "->") fun j r => j = if r = true then i + 1 else i :=
  spans_eatIf_any fun _ hc => atEnd_of_current rfl (Grammar.kind_of_isOperator hc)

/-- A token that has to be there is taken, or there is a fault at it. -/
theorem spans_required {c : Prop} [Decidable c] {fault : GrammarFault}
    (hc : c → (b.token i).kind ≠ .eof) :
    Spans b i (if c then advance else fail fault (b.token i)) (Took b i) :=
  spans_ite (fun h => spans_take (hc h)) fun _ => spans_fail (Nat.le_refl i)

theorem spans_expect {kind : TokenKind} (hk : kind ≠ .eof) (clause : Clause) :
    Spans b i (expect kind clause) (Took b i) :=
  spans_current (spans_required fun h => h ▸ hk)

theorem spans_expectText {kind : TokenKind} (hk : kind ≠ .eof) (text : String) (clause : Clause) :
    Spans b i (expectText kind text clause) (Took b i) := by
  refine spans_current (spans_required fun h => ?_)
  have hkind : (b.token i).kind = kind := by simp_all [Token.is]
  exact hkind ▸ hk

theorem spans_expectWords (words : List String) (clause : Clause) :
    Spans b i (expectWords words clause) (Took b i) :=
  spans_current (spans_required fun h => by simp [h.1])

theorem spans_expectWord (word : String) (clause : Clause) :
    Spans b i (expectWord word clause) (Took b i) := spans_expectWords _ _

theorem spans_expectName (clause : Clause) : Spans b i (expectName clause) (Took b i) :=
  spans_current (spans_required fun h => by simp [h])

end Parser

end ScriptLang
