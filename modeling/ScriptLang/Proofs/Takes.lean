import ScriptLang.Proofs.Steady

/-!
# Parsers take tokens

What a parser does with the tokens in front of it, when they are known.

* `Cursor.Faces` says which tokens are left in front of a cursor.
* `Parser.Takes` is a total statement: from every cursor that faces the first tokens, the parser
  succeeds, faces the others afterwards, and its result is as said. The rules put parsers together;
  the tokens between them are what one leaves to the next.
* `Token.endsExpression` is what the parser asks of the token in front of it (`Cursor.Faces.ends`).
-/

namespace ScriptLang

/-- The tokens from the cursor on. -/
def Cursor.Faces (c : Cursor) (ts : List Token) : Prop := c.tokens.toList.drop c.position = ts

namespace Cursor.Faces

variable {c : Cursor} {t : Token} {ts us : List Token}

theorem current (h : c.Faces (t :: ts)) : c.current = t := by
  have ht : c.tokens[c.position]? = some t := by
    have := congrArg (·[0]?) h
    simpa using this
  simp [Cursor.current, peek, Array.getD_eq_getD_getElem?, ht]

theorem step (h : c.Faces (t :: ts)) : Cursor.Faces { c with position := c.position + 1 } ts := by
  unfold Faces at h ⊢
  rw [← List.drop_drop, h]
  rfl

/-- Where the cursor stands, told by the number of tokens that it faces. -/
theorem position_add (h : c.Faces ts) (hne : ts ≠ []) : c.position + ts.length = c.tokens.size := by
  have := congrArg List.length h
  have := List.length_pos_iff.2 hne
  simp only [List.length_drop, Array.length_toList] at *
  omega

end Cursor.Faces

/-- Whether no operand can follow at a token. -/
def Token.endsExpression (t : Token) : Bool := Parser.endsExpression ⟨.ample, #[t], t, 0⟩

theorem Cursor.Faces.ends {c : Cursor} {t : Token} {ts : List Token} (h : c.Faces (t :: ts)) :
    Parser.endsExpression c = t.endsExpression := by
  have hc : c.current = (⟨.ample, #[t], t, 0⟩ : Cursor).current := h.current
  unfold Token.endsExpression Parser.endsExpression
  rw [hc]

namespace Parser

variable {α β : Type} {x : Parser α} {f : α → Parser β} {before mid after us : List Token}
  {p : α → Prop} {q : β → Prop} {t : Token}

/-- **Total correctness.** From every cursor that faces the tokens `before`, the parser succeeds and
faces the tokens `after`. -/
def Takes (x : Parser α) (before after : List Token) (p : α → Prop) : Prop :=
  ∀ c : Cursor, c.Faces before → ∃ a c', x c = .ok (a, c') ∧ c'.Faces after ∧ p a

theorem takes_pure {a : α} (h : p a) : Takes (pure a) us us p := fun c hc => ⟨a, c, rfl, hc, h⟩

theorem takes_bind (hx : Takes x before mid p) (hf : ∀ a, p a → Takes (f a) mid after q) :
    Takes (x >>= f) before after q := by
  intro c hc
  obtain ⟨a, c₁, hr, hc₁, ha⟩ := hx c hc
  obtain ⟨b, c₂, hr', hc₂, hb⟩ := hf a ha c₁ hc₁
  refine ⟨b, c₂, ?_, hc₂, hb⟩
  change Except.bind (x c) (fun r => f r.1 r.2) = _
  rw [hr]
  exact hr'

/-- The result is known. -/
theorem takes_then {a : α} (hx : Takes x before mid (· = a)) (hf : Takes (f a) mid after q) :
    Takes (x >>= f) before after q :=
  takes_bind hx fun _ ha => ha ▸ hf

/-- The result does not matter. -/
theorem takes_after (hx : Takes x before mid p) (hf : ∀ a, Takes (f a) mid after q) :
    Takes (x >>= f) before after q :=
  takes_bind hx fun a _ => hf a

theorem Takes.mono {p' : α → Prop} (hx : Takes x before after p) (h : ∀ a, p a → p' a) :
    Takes x before after p' := by
  intro c hc
  obtain ⟨a, c', hr, hc', ha⟩ := hx c hc
  exact ⟨a, c', hr, hc', h a ha⟩

theorem takes_look {g : Cursor → α} {a : α} (h : ∀ c : Cursor, c.Faces us → g c = a) :
    Takes (look g) us us (· = a) :=
  fun c hc => ⟨g c, c, rfl, hc, h c hc⟩

theorem takes_current : Takes current (t :: us) (t :: us) (· = t) :=
  takes_look fun _ hc => hc.current

theorem takes_locate (t : Token) : Takes (locate t) us us fun _ => True :=
  fun _ hc => ⟨_, _, rfl, hc, trivial⟩

theorem takes_advance (ht : t.kind ≠ .eof) : Takes advance (t :: us) us (· = t) := by
  intro c hc
  have hend : c.atEnd = false := by simp [Cursor.atEnd, hc.current, ht]
  refine ⟨t, { c with position := c.position + 1 }, ?_, hc.step, rfl⟩
  change Except.ok (c.current, c.advance) = _
  rw [hc.current, Cursor.advance, hend]
  rfl

/-- A look at the kind of the next token. -/
theorem takes_check (kind : TokenKind) :
    Takes (look (·.check kind)) (t :: us) (t :: us) (· = (t.kind == kind)) :=
  takes_look fun c hc => by rw [Cursor.check, hc.current]

theorem takes_eatIf_true {test : Cursor → Bool} (ht : t.kind ≠ .eof)
    (h : ∀ c : Cursor, c.Faces (t :: us) → test c = true) :
    Takes (eatIf test) (t :: us) us (· = true) :=
  takes_then (takes_look h) (takes_after (takes_advance ht) fun _ => takes_pure rfl)

theorem takes_eatIf_false {test : Cursor → Bool} (h : ∀ c : Cursor, c.Faces us → test c = false) :
    Takes (eatIf test) us us (· = false) :=
  takes_then (takes_look h) (takes_pure rfl)

variable {kind : TokenKind}

theorem takes_eat (ht : t.kind = kind) (hk : kind ≠ .eof) :
    Takes (eat kind) (t :: us) us (· = true) :=
  takes_eatIf_true (ht ▸ hk) fun c hc => by simp [Cursor.check, hc.current, ht]

theorem takes_eat_other (ht : t.kind ≠ kind) : Takes (eat kind) (t :: us) (t :: us) (· = false) :=
  takes_eatIf_false fun c hc => by simp [Cursor.check, hc.current, ht]

theorem takes_eatOperator {symbol : String} (ht : t.isOperator symbol = true) :
    Takes (eatOperator symbol) (t :: us) us (· = true) := by
  have hk : t.kind = .operator := by simp_all [Token.isOperator, Token.is]
  exact takes_eatIf_true (by simp [hk]) fun c hc => by simp [Cursor.checkOperator, hc.current, ht]

theorem takes_eatOperator_other {symbol : String} (ht : t.isOperator symbol = false) :
    Takes (eatOperator symbol) (t :: us) (t :: us) (· = false) :=
  takes_eatIf_false fun c hc => by simp [Cursor.checkOperator, hc.current, ht]

theorem takes_expect (clause : Clause) (ht : t.kind = kind) (hk : kind ≠ .eof) :
    Takes (expect kind clause) (t :: us) us (· = t) := by
  refine takes_then takes_current ?_
  rw [if_pos ht]
  exact takes_advance (ht ▸ hk)

theorem takes_expectWord {word : String} (clause : Clause) (ht : t.isKeyword word = true) :
    Takes (expectWord word clause) (t :: us) us (· = t) := by
  have hk : t.kind = .keyword ∧ t.value = word := by simp_all [Token.isKeyword, Token.is]
  refine takes_then takes_current ?_
  rw [if_pos ⟨hk.1, by simp [hk.2]⟩]
  exact takes_advance (by simp [hk.1])

end Parser

end ScriptLang
