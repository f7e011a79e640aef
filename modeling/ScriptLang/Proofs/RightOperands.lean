import Mathlib
import ScriptLang.Proofs.RoundTrip

/-!
# Right operands

An operator stands before its two operands, and nothing stands between these. Whether a second
operand is read depends on the next token alone: there is a list of the tokens that no operand can
follow at. What can start an operand is said elsewhere, by the rule for primaries, and the two agree
but for one token. A backtick starts a template, and yet it is in the list.

* `Grammar.Operand` says of tokens that the rule for primaries takes them, wherever they stand. It
  does so with names, literals, containers, templates and parentheses around an expression
  (`Grammar.operand_of_renders`, `Grammar.operand_wrapped`).
* `TokenKind.opensOperand` are the kinds of tokens that a second operand may start with, without
  being taken for something else.
* `Parser.Refuses` is the counterpart of `Parser.Takes`, for a parser that stops.
* `right_operands_are_read` is the main statement: a second operand is read, unless it starts with a
  backtick. There the operator is left with one operand, which a minus sign can have and no other.
-/

namespace ScriptLang

/-- The kinds of tokens that a second operand may start with. A bracket would be read as the index
of the first operand. -/
def TokenKind.opensOperand : TokenKind → Bool
  | .identifier | .number | .string | .boolean | .null | .backtick | .leftBrace | .leftParen => true
  | _ => false

/-- What starts an operand continues no other operand. -/
theorem Token.separates_of_opensOperand {t : Token} (h : t.kind.opensOperand = true) :
    t.Separates := by
  refine separates_of_kind ?_ ?_
  · intro hk
    rw [hk] at h
    cases h
  · intro hk
    rw [hk] at h
    cases h

/-- The list of tokens that end an expression has one token that starts an operand. -/
theorem Token.endsExpression_of_opensOperand {t : Token} (h : t.kind.opensOperand = true) :
    t.endsExpression = (t.kind == .backtick) := by
  rw [endsExpression_eq]
  cases hk : t.kind <;> first | rfl | (rw [hk] at h; cases h)

/-- The expressions that are spelled by one token or stand between marks of their own. -/
def Expr.isClosed : Expr → Bool
  | .ident .. | .literal .. | .array .. | .object .. | .template .. => true
  | _ => false

namespace Parser

variable {α β : Type} {x : Parser α} {f : α → Parser β} {before mid : List Token} {p : α → Prop}
  {fault : GrammarFault} {t : Token}

/-- **Refusal.** From every cursor that faces the tokens, the parser stops with the fault at a
token. -/
def Refuses (x : Parser α) (before : List Token) (fault : GrammarFault) (t : Token) : Prop :=
  ∀ c : Cursor, c.Faces before → ∃ consumed, x c = .error (.fault fault t consumed)

theorem refuses_fail : Refuses (fail fault t : Parser α) before fault t :=
  fun _ _ => ⟨_, rfl⟩

theorem refuses_bind (hx : Refuses x before fault t) : Refuses (x >>= f) before fault t := by
  intro c hc
  obtain ⟨consumed, hr⟩ := hx c hc
  refine ⟨consumed, ?_⟩
  change Except.bind (x c) (fun r => f r.1 r.2) = _
  rw [hr]
  rfl

theorem takes_refuses (hx : Takes x before mid p) (hf : ∀ a, p a → Refuses (f a) mid fault t) :
    Refuses (x >>= f) before fault t := by
  intro c hc
  obtain ⟨a, c₁, hr, hc₁, ha⟩ := hx c hc
  obtain ⟨consumed, hr'⟩ := hf a ha c₁ hc₁
  refine ⟨consumed, ?_⟩
  change Except.bind (x c) (fun r => f r.1 r.2) = _
  rw [hr]
  exact hr'

end Parser

namespace Grammar

open ScriptLang.Parser

variable {n : Nat} {e : Expr} {t opening closing stop : Token} {op : BinaryOp}
  {ts us : List Token}

/-- **Operand.** Wherever the tokens stand, the rule for primaries takes exactly these, and the
expression is made of them. -/
def Operand (n : Nat) (e : Expr) (ts : List Token) : Prop :=
  ∀ us, Takes (atom (ofBound n)) (ts ++ us) us (·.unlocated = e.unlocated)

/-- What an expression is read from is an operand in parentheses. -/
theorem operand_wrapped (ho : opening.kind = .leftParen) (hc : closing.kind = .rightParen)
    (he : ∀ us, Takes (ofBound n).expression (ts ++ closing :: us) (closing :: us)
      (·.unlocated = e.unlocated)) : Operand n e (opening :: (ts ++ [closing])) := by
  intro us
  have hinner := takes_atom_wrapped ho hc (he us)
  simpa using hinner

/-- No primary starts with an operator. -/
theorem refuses_atom {g : Grammar} (ht : isOperation t = true) :
    ∃ fault, Refuses (atom g) (t :: us) fault t := by
  unfold isOperation at ht
  split at ht
  -- An operator is no word; the logical words are none of those that begin an expression.
  · next hk =>
    refine ⟨.tokenInExpression t.value, takes_refuses takes_current ?_⟩
    rintro _ rfl
    rw [hk]
    exact refuses_fail
  · next hk =>
    have hword : ¬ (t.value == "function" || t.value == "fn") = true ∧
        ¬ (t.value == "call") = true := by
      simp only [Bool.or_eq_true, beq_iff_eq] at ht ⊢
      rcases ht with (hv | hv) | hv <;> simp [hv]
    refine ⟨.wordInExpression t.value, takes_refuses takes_current ?_⟩
    rintro _ rfl
    rw [hk]
    simp only [wordAtom]
    rw [if_neg hword.1, if_neg hword.2]
    exact refuses_fail
  · cases ht

/-- Renderings that are closed are operands as they are. -/
theorem operand_of_renders (h : Renders (.expr e) ts) (he : e.isClosed = true)
    (hn : ts.length ≤ n) : Operand n e ts := by
  intro us
  cases h with
  | ident hk => exact takes_atom_ident hk
  | literal hl => exact takes_atom_literal hl
  | array ho hc hi =>
    simp only [List.length_cons, List.length_append, List.length_nil] at hn
    simpa [Expr.unlocated] using takes_renderedArray ho hc hi hi.taken (by omega)
  | object ho hc hi =>
    simp only [List.length_cons, List.length_append, List.length_nil] at hn
    simpa [Expr.unlocated] using takes_renderedObject ho hc hi hi.taken (by omega)
  | template ho hc hi =>
    simp only [List.length_cons, List.length_append, List.length_nil] at hn
    simpa [Expr.unlocated] using takes_renderedTemplate ho hc hi.taken (by omega)
  | _ => cases he

/-- An operand starts with a token that is no operator. -/
theorem Operand.first (h : Operand n e ts) : ∃ t us, ts = t :: us ∧ isOperation t = false := by
  cases ts with
  | nil =>
    -- Nothing is taken at the end of a text.
    obtain ⟨_, _, hread, -⟩ := h [Cursor.eofAlone ""] (.ofTokens .ample [] "") rfl
    cases hread
  | cons t us =>
    refine ⟨t, us, rfl, Bool.eq_false_iff.mpr fun ht => ?_⟩
    have hfaces : Cursor.Faces ⟨.ample, (t :: us).toArray, t, 0⟩ (t :: us) := by simp [Cursor.Faces]
    obtain ⟨_, _, hread, -⟩ := h [] _ (by rwa [List.append_nil])
    obtain ⟨_, hrefuse⟩ : ∃ fault, Refuses (atom (ofBound n)) (t :: us) fault t := refuses_atom ht
    obtain ⟨_, hstop⟩ := hrefuse _ hfaces
    rw [hread] at hstop
    cases hstop

/-- The first operand ends in front of what starts the second one. -/
theorem Operand.takes (h : Operand n e ts) (hn : 2 ≤ n) (hs : stop.Separates) :
    Takes (ofBound (n + 1)).expression (ts ++ stop :: us) (stop :: us)
      (·.unlocated = e.unlocated) := by
  obtain ⟨t, rest, rfl, ht⟩ := h.first
  exact takes_atom_only ht (h (stop :: us)) (bound_ne_zero hn) hs

/-- A minus sign is the only way to write a difference. -/
theorem isOperator_of_sub (ht : isOperation t = true)
    (hop : BinaryOp.ofSymbol? t.value = some .sub) : t.isOperator "-" = true := by
  have hv : t.value = "-" := by
    unfold BinaryOp.ofSymbol? at hop
    split at hop <;> simp_all
  have hk : t.kind = .operator := by
    unfold isOperation at ht
    split at ht <;> simp_all
  exact Token.isOperator_iff.mpr ⟨hk, hv⟩

/-- An operator that needs a second operand, in front of a token that none follows at. -/
theorem refuses_operation {g : Grammar} {before : List Token} {p : Expr → Prop}
    (hop : BinaryOp.ofSymbol? t.value = some op) (hsub : op ≠ .sub)
    (he : Takes g.expression before (stop :: us) p) (hs : stop.endsExpression = true) :
    Refuses (operation g t) before (.notUnary t.value) t := by
  have hnot : ¬ (t.value == "not") = true := by
    intro hv
    rw [beq_iff_eq.1 hv] at hop
    cases hop
  unfold operation
  rw [if_neg hnot, hop]
  refine takes_refuses he fun left _ => takes_refuses (takes_look fun c hc => hc.ends) ?_
  rintro _ rfl
  rw [if_pos hs, if_neg hsub]
  exact refuses_fail

end Grammar

open ScriptLang.Grammar ScriptLang.Parser

/-- **Second operands are read, unless they start with a backtick.** For an operator with two
operands, names, literals, containers, templates and whatever is in parentheses are operands. In
front of a token that an expression ends at, two operands are both read, if the second one does not
start with a bracket, which would belong to the first one, and not with a backtick. In front of a
backtick a minus sign negates the first operand, and any other operator is refused. -/
theorem right_operands_are_read {n : Nat} (hn : 2 ≤ n) {t : Token} {op : BinaryOp}
    (ht : isOperation t = true) (hop : BinaryOp.ofSymbol? t.value = some op) :
    (∀ {e : Expr} {ts : List Token}, Renders (.expr e) ts → ts.length + 2 ≤ n →
      (e.isClosed = true → Operand n e ts) ∧
      ∀ {opening closing : Token}, opening.kind = .leftParen → closing.kind = .rightParen →
        Operand n e (opening :: (ts ++ [closing]))) ∧
    ∀ {l r : Expr} {ls rs us : List Token} {u stop : Token}, Operand n l ls →
      Operand n r (u :: rs) → u.kind.opensOperand = true → stop.endsExpression = true →
      let before := t :: (ls ++ u :: (rs ++ stop :: us))
      (u.kind ≠ .backtick → Takes (ofBound (n + 2)).expression before (stop :: us)
        (·.unlocated = .binary default op l.unlocated r.unlocated)) ∧
      (u.kind = .backtick → op = .sub →
        Takes (ofBound (n + 2)).expression before (u :: (rs ++ stop :: us))
          (·.unlocated = .unary default .neg l.unlocated)) ∧
      (u.kind = .backtick → op ≠ .sub →
        Refuses (ofBound (n + 2)).expression before (.notUnary t.value) t) := by
  refine ⟨fun {e ts} hr hlen => ⟨fun he => operand_of_renders hr he (by omega), ?_⟩, ?_⟩
  · intro opening closing ho hc
    refine operand_wrapped ho hc fun us => hr.taken n closing us hlen (.inl ?_)
    simp [Token.endsExpression_eq, hc]
  intro l r ls rs us u stop hl hr hu hs before
  have hsep := Token.separates_of_opensOperand hu
  have hends := Token.endsExpression_of_opensOperand hu
  have hb : (ofBound (n + 1)).bound ≠ 0 := bound_ne_zero (by omega)
  have hleft : Takes (ofBound (n + 1)).expression (ls ++ u :: (rs ++ stop :: us))
      (u :: (rs ++ stop :: us)) (·.unlocated = l.unlocated) := hl.takes hn hsep
  -- What comes between the operands decides: only a backtick ends the expression there.
  refine ⟨fun hk => ?_, fun hk hsub => ?_, fun hk hsub => ?_⟩
  · have hgoes : u.endsExpression = false := hends.trans (beq_false_of_ne hk)
    have hright : Takes (ofBound (n + 1)).expression (u :: (rs ++ stop :: us)) (stop :: us)
        (·.unlocated = r.unlocated) := hr.takes hn (Token.separates_of_ends hs)
    have h := takes_expressionWith
      (takes_operand_operation ht (takes_operation_binary hop hleft hgoes hright)) hb
      (Token.separates_of_ends hs).bar
    refine h.mono ?_
    rintro _ ⟨loc, l', r', rfl, hl', hr'⟩
    simp [Expr.unlocated, hl', hr']
  · subst hsub
    have hstops : u.endsExpression = true := hends.trans (beq_iff_eq.mpr hk)
    have h := takes_expressionWith (takes_operand_operation ht
      (takes_operation_neg (isOperator_of_sub ht hop) hleft hstops)) hb hsep.bar
    refine h.mono ?_
    rintro _ ⟨loc, l', rfl, hl'⟩
    simp [Expr.unlocated, hl']
  · have hstops : u.endsExpression = true := hends.trans (beq_iff_eq.mpr hk)
    have hk : t.kind ≠ .eof := fun hk => by simp [isOperation, hk] at ht
    refine refuses_bind (takes_refuses takes_current ?_)
    rintro _ rfl
    rw [if_pos ht]
    exact takes_refuses (takes_advance hk) fun _ _ => refuses_operation hop hsub hleft hstops

/-- A text and a name are added, a text and a template are not. -/
theorem right_operands_are_read_sum :
    let plus := Renderable.word .operator "+"
    let a := Renderable.word .string "a"
    let b := Renderable.word .identifier "b"
    let mark := Renderable.word .backtick ""
    let text := Renderable.word .fragment "b"
    let stop := Renderable.word .eof ""
    2 ≤ 5 ∧ isOperation plus = true ∧ BinaryOp.ofSymbol? plus.value = some .add ∧
    Operand 5 (.literal default (.string "a")) [a] ∧ Operand 5 (.ident default "b") [b] ∧
    Operand 5 (.template default [.text "b"]) [mark, text, mark] ∧
    b.kind.opensOperand = true ∧ mark.kind.opensOperand = true ∧ stop.endsExpression = true ∧
    Takes (ofBound 7).expression [plus, a, b, stop] [stop]
      (·.unlocated = .binary default .add (.literal default (.string "a")) (.ident default "b")) ∧
    Refuses (ofBound 7).expression [plus, a, mark, text, mark, stop] (.notUnary "+") plus := by
  intro plus a b mark text stop
  have hplus : BinaryOp.ofSymbol? plus.value = some .add := rfl
  obtain ⟨hrenders, hread⟩ := right_operands_are_read (n := 5) (by decide) (t := plus) rfl hplus
  have ha : Renders (.expr (.literal default (.string "a"))) [a] := .literal rfl
  have hb : Renders (.expr (.ident default b.value)) [b] := .ident rfl
  have htemplate : Renders (.expr (.template default [.text text.value]))
      (mark :: ([text] ++ [mark])) := .template rfl rfl (.text rfl (by decide) .noParts)
  have hleft := (hrenders ha (by decide)).1 rfl
  have hright := (hrenders hb (by decide)).1 rfl
  have hmark := (hrenders htemplate (by decide)).1 rfl
  have hstop : stop.endsExpression = true := rfl
  have hsum : Takes (ofBound 7).expression [plus, a, b, stop] [stop] _ :=
    (hread hleft hright rfl hstop).1 (by decide)
  have hrefused : Refuses (ofBound 7).expression [plus, a, mark, text, mark, stop] _ _ :=
    (hread hleft hmark rfl hstop).2.2 rfl (by decide)
  exact ⟨by decide, rfl, hplus, hleft, hright, hmark, rfl, rfl, hstop, hsum, hrefused⟩

end ScriptLang
