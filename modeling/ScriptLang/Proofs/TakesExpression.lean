import ScriptLang.Proofs.Rendering
import ScriptLang.Proofs.Takes

/-!
# How the rules for expressions take tokens

For each rule of the grammar of expressions, which tokens it takes when its parts take theirs. The
parts may belong to any grammar.

* What comes next decides where an expression ends. `Token.Separates` holds of the tokens that
  continue neither a primary nor a chain of pipes, `Token.Leads` of those that start an operand;
  both leave an operand in front of them as it is.
* `Grammar.items` and `Grammar.keyedEntries` are the lists of array and object literals with their
  first members.
-/

namespace ScriptLang

/-! ### What follows an expression -/

theorem Token.endsExpression_eq (t : Token) : t.endsExpression =
    match t.kind with
    | .eof | .rightParen | .rightBracket | .rightBrace | .comma | .colon | .interpolationEnd
    | .backtick => true
    | .operator => t.value == "->"
    | .keyword =>
      Parser.closingWords.contains t.value || Parser.startingWords.contains t.value ||
        t.value == "then"
    | _ => false := rfl

/-- The token continues no primary. -/
structure Token.EndsPrimary (t : Token) : Prop where
  dot : t.isOperator "." = false
  safeDot : t.isOperator "?." = false
  bracket : t.kind ≠ .leftBracket

/-- The token continues no primary and starts no pipe. -/
structure Token.Separates (t : Token) : Prop extends t.EndsPrimary where
  bar : t.isOperator "|>" = false

/-- The kinds of the tokens that expressions start with. -/
def TokenKind.opensExpression : TokenKind → Bool
  | .identifier | .keyword | .number | .string | .boolean | .null | .operator | .leftParen
  | .leftBracket | .leftBrace | .backtick => true
  | _ => false

/-- The token starts an expression, or spreads one. -/
def Token.Opens (t : Token) : Prop := t.kind = .spread ∨ t.kind.opensExpression = true

/-- The token starts an operand, which may follow another one. -/
structure Token.Leads (t : Token) : Prop extends t.Separates where
  goesOn : t.endsExpression = false
  opens : t.kind.opensExpression = true

namespace Token

variable {t : Token}

attribute [local simp] TokenKind.opensExpression

theorem isOperator_iff {symbol : String} :
    t.isOperator symbol ↔ t.kind = .operator ∧ t.value = symbol := by
  simp [Token.isOperator, Token.is]

theorem isKeyword_iff {word : String} : t.isKeyword word ↔ t.kind = .keyword ∧ t.value = word := by
  simp [Token.isKeyword, Token.is]

theorem Opens.kind_ne {kind : TokenKind} (h : t.Opens)
    (hk : kind ≠ .spread ∧ kind.opensExpression = false) : t.kind ≠ kind := by
  rintro rfl
  exact h.elim hk.1 fun ho => by rw [hk.2] at ho; cases ho

/-- Only operators and brackets continue an expression. -/
theorem separates_of_kind (ho : t.kind ≠ .operator) (hb : t.kind ≠ .leftBracket) :
    t.Separates := by
  refine ⟨⟨?_, ?_, hb⟩, ?_⟩ <;> simp [Token.isOperator, Token.is, ho]

theorem separates_of_ends (h : t.endsExpression = true) : t.Separates := by
  by_cases ho : t.kind = .operator
  · have hv : t.value = "->" := by simpa [Token.endsExpression_eq, ho] using h
    refine ⟨⟨?_, ?_, by simp [ho]⟩, ?_⟩ <;> simp [Token.isOperator, Token.is, hv]
  · refine separates_of_kind ho fun hb => ?_
    simp [Token.endsExpression_eq, hb] at h

/-- Names, literals and parentheses start operands. -/
theorem leads_of_kind (hk : t.kind ≠ .operator ∧ t.kind ≠ .leftBracket)
    (ho : t.kind.opensExpression = true) (he : t.endsExpression = false) : t.Leads :=
  ⟨separates_of_kind hk.1 hk.2, he, ho⟩

theorem leads_of_identifier (hk : t.kind = .identifier) : t.Leads :=
  leads_of_kind (by simp [hk]) (by simp [hk])
    (by rw [endsExpression_eq, hk])

theorem leads_of_leftParen (hk : t.kind = .leftParen) : t.Leads :=
  leads_of_kind (by simp [hk]) (by simp [hk])
    (by rw [endsExpression_eq, hk])

theorem leads_of_literal {value : Literal} (h : t.literal? = some value) :
    t.Leads ∧ Grammar.isOperation t = false := by
  unfold Token.literal? at h
  split at h
  case h_5 => cases h
  all_goals
    next hk =>
      refine ⟨leads_of_kind (by simp [hk]) ?_ ?_, by simp [Grammar.isOperation, hk]⟩
      · simp [hk]
      · rw [endsExpression_eq, hk]

/-- Operators and logical words start operands. -/
theorem leads_of_operation {op : BinaryOp} (h : Grammar.isOperation t)
    (hop : BinaryOp.ofSymbol? t.value = some op) : t.Leads := by
  unfold Grammar.isOperation at h
  split at h
  · next hk =>
    refine ⟨⟨⟨?_, ?_, by simp [hk]⟩, ?_⟩, ?_, by simp [hk]⟩
    · simp_all [Token.isOperator, Token.is]
    · simp_all [Token.isOperator, Token.is]
    · simp_all [Token.isOperator, Token.is]
    · rw [endsExpression_eq, hk]
      refine beq_false_of_ne fun hv => ?_
      rw [hv] at hop
      cases hop
  · next hk =>
    refine leads_of_kind (by simp [hk]) (by simp [hk]) ?_
    simp only [Bool.or_eq_true, beq_iff_eq] at h
    rcases h with (hv | hv) | hv
    all_goals simp [endsExpression_eq, hk, hv, Parser.closingWords, Parser.startingWords]
  · cases h

theorem leads_of_not (h : t.isKeyword "not") : t.Leads := by
  have hk := isKeyword_iff.1 h
  refine leads_of_kind (by simp [hk.1]) (by simp [hk.1]) ?_
  simp [endsExpression_eq, hk, Parser.closingWords, Parser.startingWords]

end Token

/-- A callee starts with a name. -/
theorem RendersCallee.first {callee : Expr} {cs : List Token} (h : RendersCallee callee cs) :
    ∃ t us, cs = t :: us ∧ t.kind = .identifier := by
  cases h with
  | ident hk => exact ⟨_, _, rfl, hk⟩
  | member hk => exact ⟨_, _, rfl, hk⟩

namespace Grammar

open ScriptLang.Parser

/-! ### The rules of the grammar -/

section Rules

variable {g : Grammar} {before mid after us : List Token} {t stop : Token} {e base : Expr}
  {p q : Expr → Prop}

attribute [local simp] Expr.unlocated

/-- Nothing more belongs to a primary. -/
theorem takes_members_none {bound : Nat} (hb : bound ≠ 0) (hs : stop.EndsPrimary)
    (hp : p base) : Takes (members g bound base) (stop :: us) (stop :: us) p := by
  obtain ⟨bound, rfl⟩ := Nat.exists_eq_succ_of_ne_zero hb
  refine takes_then takes_current ?_
  rw [if_neg (by simp [hs.dot, hs.safeDot]), if_neg hs.bracket]
  exact takes_pure hp

/-- A member after a dot, and what follows it. -/
theorem takes_members_dot {bound : Nat} (ht : t.isOperator "." ∨ t.isOperator "?.")
    (hd : Takes (dotMember g t base) us mid p)
    (hm : ∀ a, p a → Takes (members g bound a) mid after q) :
    Takes (members g (bound + 1) base) (t :: us) after q := by
  have hk : t.kind = .operator := by
    rcases ht with ht | ht <;> simp_all [Token.isOperator, Token.is]
  refine takes_then takes_current ?_
  rw [if_pos (by simpa using ht)]
  exact takes_after (takes_advance (by simp [hk])) fun _ => takes_bind hd hm

/-- A member in brackets, and what follows it. -/
theorem takes_members_bracket {bound : Nat} (ht : t.kind = .leftBracket)
    (hd : ∀ clause, Takes (bracketMember g t base clause) us mid p)
    (hm : ∀ a, p a → Takes (members g bound a) mid after q) :
    Takes (members g (bound + 1) base) (t :: us) after q := by
  refine takes_then takes_current ?_
  rw [if_neg (by simp [Token.isOperator, Token.is, ht]), if_pos ht]
  exact takes_after (takes_advance (by simp [ht])) fun _ => takes_bind (hd _) hm

/-- No pipe follows. -/
theorem takes_pipes_none {bound : Nat} (hb : bound ≠ 0) (hs : stop.isOperator "|>" = false)
    (hp : p base) : Takes (pipes g bound base) (stop :: us) (stop :: us) p := by
  obtain ⟨bound, rfl⟩ := Nat.exists_eq_succ_of_ne_zero hb
  refine takes_then takes_current ?_
  rw [if_neg (by simp [hs])]
  exact takes_pure hp

/-- An operand that starts with no operator is a primary. -/
theorem takes_operand_primary (ht : isOperation t = false)
    (hp : Takes (primary g) (t :: us) after p) : Takes (operand g) (t :: us) after p := by
  refine takes_then takes_current ?_
  rw [if_neg (by simp [ht])]
  exact hp

/-- An operator and its operands. -/
theorem takes_operand_operation (ht : isOperation t = true)
    (hp : Takes (operation g t) us after p) : Takes (operand g) (t :: us) after p := by
  have hk : t.kind ≠ .eof := fun hk => by simp [isOperation, hk] at ht
  refine takes_then takes_current ?_
  rw [if_pos ht]
  exact takes_after (takes_advance hk) fun _ => hp

/-- An expression without pipes. -/
theorem takes_expressionWith (ho : Takes (operand g) before (stop :: us) p) (hb : g.bound ≠ 0)
    (hs : stop.isOperator "|>" = false) : Takes (expressionWith g) before (stop :: us) p :=
  takes_bind ho fun _ ha => takes_pipes_none hb hs ha

/-- A primary without members. -/
theorem takes_primary (ha : Takes (atom g) before (stop :: us) p) (hb : g.bound ≠ 0)
    (hs : stop.EndsPrimary) : Takes (primary g) before (stop :: us) p :=
  takes_bind ha fun _ ha => takes_members_none hb hs ha

/-- An expression that is one primary. -/
theorem takes_atom_only (ht : isOperation t = false)
    (ha : Takes (atom g) (t :: before) (stop :: us) p) (hb : g.bound ≠ 0) (hs : stop.Separates) :
    Takes (expressionWith g) (t :: before) (stop :: us) p :=
  takes_expressionWith (takes_operand_primary ht (takes_primary ha hb hs.toEndsPrimary)) hb hs.bar

/-- An expression in parentheses. -/
theorem takes_atom_wrapped {opening closing : Token} (ho : opening.kind = .leftParen)
    (hc : closing.kind = .rightParen) (he : Takes g.expression before (closing :: us) p) :
    Takes (atom g) (opening :: before) us p := by
  refine takes_then takes_current ?_
  rw [ho]
  refine takes_after (takes_advance (by simp [ho])) fun _ => takes_bind he fun a ha => ?_
  exact takes_after (takes_expect _ hc (by simp)) fun _ => takes_pure ha

/-- A name. -/
theorem takes_atom_ident (ht : t.kind = .identifier) :
    Takes (atom g) (t :: us) us (·.unlocated = .ident default t.value) := by
  refine takes_then takes_current ?_
  rw [ht]
  exact takes_after (takes_advance (by simp [ht])) fun _ =>
    takes_after (takes_locate t) fun _ => takes_pure (by simp)

/-- A literal. -/
theorem takes_atom_literal {value : Literal} (ht : t.literal? = some value) :
    Takes (atom g) (t :: us) us (·.unlocated = .literal default value) := by
  unfold Token.literal? at ht
  refine takes_then takes_current ?_
  split at ht
  case h_1 hk =>
    obtain ⟨x, hx, rfl⟩ := Option.map_eq_some_iff.1 ht
    rw [hk]
    refine takes_after (takes_advance (by simp [hk])) fun _ => ?_
    simp only [hx]
    exact takes_after (takes_locate t) fun _ => takes_pure (by simp)
  case h_5 => cases ht
  -- The other literals are what their tokens say.
  all_goals
    next hk =>
      cases ht
      rw [hk]
      exact takes_after (takes_advance (by simp [hk])) fun _ =>
        takes_after (takes_locate t) fun _ => takes_pure (by simp)

/-- An array literal. -/
theorem takes_atom_array {opening : Token} (ho : opening.kind = .leftBracket)
    (h : Takes (arrayLiteral g opening) before after p) :
    Takes (atom g) (opening :: before) after p := by
  refine takes_then takes_current ?_
  rw [ho]
  exact takes_after (takes_advance (by simp [ho])) fun _ => h

/-- An object literal. -/
theorem takes_atom_object {opening : Token} (ho : opening.kind = .leftBrace)
    (h : Takes (objectLiteral g opening) before after p) :
    Takes (atom g) (opening :: before) after p := by
  refine takes_then takes_current ?_
  rw [ho]
  exact takes_after (takes_advance (by simp [ho])) fun _ => h

/-- A template. -/
theorem takes_atom_template {opening : Token} (ho : opening.kind = .backtick)
    (h : Takes (templateLiteral g opening) before after p) :
    Takes (atom g) (opening :: before) after p := by
  refine takes_then takes_current ?_
  rw [ho]
  exact takes_after (takes_advance (by simp [ho])) fun _ => h

/-! ### Lists -/

theorem takes_moreItems_none {bound : Nat} (hb : bound ≠ 0) (hs : stop.kind ≠ .comma) :
    Takes (moreItems g bound) (stop :: us) (stop :: us) (· = []) := by
  obtain ⟨bound, rfl⟩ := Nat.exists_eq_succ_of_ne_zero hb
  refine takes_then (takes_eat_other hs) ?_
  exact takes_pure rfl

theorem takes_moreEntries_none {bound : Nat} (hb : bound ≠ 0) (hs : stop.kind ≠ .comma) :
    Takes (moreEntries g bound) (stop :: us) (stop :: us) (· = []) := by
  obtain ⟨bound, rfl⟩ := Nat.exists_eq_succ_of_ne_zero hb
  refine takes_then (takes_eat_other hs) ?_
  exact takes_pure rfl

/-- The items of an array literal. -/
def items (g : Grammar) (bound : Nat) : Parser (List Element) := do
  let e ← element g
  return e :: (← moreItems g bound)

/-- The entries of an object literal. -/
def keyedEntries (g : Grammar) (first : Bool) (bound : Nat) : Parser (List Entry) := do
  let e ← entry g first
  return e :: (← moreEntries g bound)

theorem takes_moreItems {bound : Nat} {comma : Token} {q : List Element → Prop}
    (hc : comma.kind = .comma) (ht : t.Opens)
    (hi : Takes (items g bound) (t :: us) after q) :
    Takes (moreItems g (bound + 1)) (comma :: t :: us) after q := by
  refine takes_then (takes_eat hc (by simp)) (takes_then (takes_check _) ?_)
  rw [if_neg (by simpa using ht.kind_ne (by decide))]
  exact hi

theorem takes_moreEntries {bound : Nat} {comma : Token} {q : List Entry → Prop}
    (hc : comma.kind = .comma) (ht : t.Opens)
    (hi : Takes (keyedEntries g false bound) (t :: us) after q) :
    Takes (moreEntries g (bound + 1)) (comma :: t :: us) after q := by
  refine takes_then (takes_eat hc (by simp)) (takes_then (takes_check _) ?_)
  rw [if_neg (by simpa using ht.kind_ne (by decide))]
  exact hi

/-- An array literal with items. -/
theorem takes_array {start closing : Token} {q : List Element → Prop} (ht : t.Opens)
    (hk : closing.kind = .rightBracket)
    (hi : Takes (items g g.bound) (t :: before) (closing :: us) q) :
    Takes (arrayLiteral g start) (t :: before) us fun e => ∃ loc es, e = .array loc es ∧ q es := by
  refine takes_then (takes_check _) ?_
  rw [if_neg (by simpa using ht.kind_ne (by decide))]
  have hclose (es : List Element) (hes : q es) :
      Takes (do
        let _ ← expect .rightBracket
          ⟨"SYN012", "Expected a closing square bracket to end an array literal."⟩
        return Expr.array (← locate start) es) (closing :: us) us
        fun e => ∃ loc es, e = .array loc es ∧ q es :=
    takes_after (takes_expect _ hk (by simp)) fun _ =>
      takes_after (takes_locate start) fun loc => takes_pure ⟨loc, es, rfl, hes⟩
  simpa [items, bind_assoc] using takes_bind hi hclose

/-- An object literal with entries. -/
theorem takes_object {start closing : Token} {q : List Entry → Prop} (ht : t.Opens)
    (hk : closing.kind = .rightBrace)
    (hi : Takes (keyedEntries g true g.bound) (t :: before) (closing :: us) q) :
    Takes (objectLiteral g start) (t :: before) us
      fun e => ∃ loc es, e = .object loc es ∧ q es := by
  refine takes_then (takes_check _) ?_
  rw [if_neg (by simpa using ht.kind_ne (by decide))]
  have hclose (es : List Entry) (hes : q es) :
      Takes (do
        let _ ← expect .rightBrace
          ⟨"SYN018", "Expected a closing curly brace to end an object literal."⟩
        return Expr.object (← locate start) es) (closing :: us) us
        fun e => ∃ loc es, e = .object loc es ∧ q es :=
    takes_after (takes_expect _ hk (by simp)) fun _ =>
      takes_after (takes_locate start) fun loc => takes_pure ⟨loc, es, rfl, hes⟩
  simpa [keyedEntries, bind_assoc] using takes_bind hi hclose

/-- Arguments. -/
theorem takes_arguments {p : List Element → Prop} (ht : t.Opens)
    (hi : Takes (elements g g.bound) (t :: before) after p) :
    Takes (arguments g) (t :: before) after p := by
  refine takes_then (takes_check _) ?_
  rw [if_neg (by simpa using ht.kind_ne (by decide))]
  exact hi

theorem takes_arguments_none (hs : stop.kind = .rightParen) :
    Takes (arguments g) (stop :: us) (stop :: us) (· = []) := by
  refine takes_then (takes_check _) ?_
  rw [if_pos (by simpa using hs)]
  exact takes_pure rfl

/-- A callee, after its first name has been consumed. -/
theorem takes_callee {callee : Expr} {first : Token} {cs : List Token} (clause : Clause)
    (h : RendersCallee callee (first :: cs)) (hs : stop.isOperator "." = false) :
    Takes (Grammar.callee first clause) (cs ++ stop :: us) (stop :: us)
      (·.unlocated = callee.unlocated) := by
  cases h with
  | ident _ =>
    refine takes_after (takes_locate _) fun loc => takes_then (takes_eatOperator_other hs) ?_
    exact takes_pure (by simp)
  | member _ hd hn =>
    refine takes_after (takes_locate _) fun loc => takes_then (takes_eatOperator hd) ?_
    refine takes_then (takes_expect _ hn (by simp)) ?_
    exact takes_pure (by simp)

/-- An operator and its two operands. -/
theorem takes_operation_binary {op : BinaryOp} (hop : BinaryOp.ofSymbol? t.value = some op)
    (hl : Takes g.expression before (stop :: mid) p) (hs : stop.endsExpression = false)
    (hr : Takes g.expression (stop :: mid) after q) :
    Takes (operation g t) before after
      fun e => ∃ loc left right, e = .binary loc op left right ∧ p left ∧ q right := by
  have hnot : ¬ (t.value == "not") = true := by
    intro hv
    rw [beq_iff_eq.1 hv] at hop
    cases hop
  unfold operation
  rw [if_neg hnot, hop]
  refine takes_bind hl fun left hleft => takes_then (takes_look fun c hc => hc.ends) ?_
  rw [if_neg (by simp [hs])]
  exact takes_bind hr fun right hright => takes_after (takes_locate t) fun loc =>
    takes_pure ⟨loc, left, right, rfl, hleft, hright⟩

/-- A minus sign and its only operand. -/
theorem takes_operation_neg (ht : t.isOperator "-")
    (he : Takes g.expression before (stop :: us) p) (hs : stop.endsExpression = true) :
    Takes (operation g t) before (stop :: us) fun e => ∃ loc a, e = .unary loc .neg a ∧ p a := by
  have hv : t.value = "-" := (Token.isOperator_iff.1 ht).2
  unfold operation
  rw [if_neg (by simp [hv]), hv]
  refine takes_bind he fun a ha => takes_then (takes_look fun c hc => hc.ends) ?_
  rw [if_pos hs, if_pos rfl]
  exact takes_after (takes_locate t) fun loc => takes_pure ⟨loc, a, rfl, ha⟩

/-- A negated condition. -/
theorem takes_operation_not (ht : t.isKeyword "not") (he : Takes g.expression before after p) :
    Takes (operation g t) before after fun e => ∃ loc a, e = .unary loc .not a ∧ p a := by
  unfold operation
  rw [if_pos (by simp [(Token.isKeyword_iff.1 ht).2])]
  exact takes_bind he fun a ha => takes_after (takes_locate t) fun loc =>
    takes_pure ⟨loc, a, rfl, ha⟩

/-- The name after a dot. -/
theorem takes_dotMember_name {name : Token} {safe : Bool}
    (ht : t.isOperator (if safe then "?." else ".")) (hn : name.kind = .identifier) :
    Takes (dotMember g t base) (name :: us) us
      fun e => ∃ loc, e = .property loc base name.value safe := by
  have hv : (t.value == "?.") = safe := by
    rw [(Token.isOperator_iff.1 ht).2]
    cases safe <;> rfl
  have hno (kind : TokenKind) (hk : kind ≠ .identifier) (c : Cursor) (hc : c.Faces (name :: us)) :
      ((t.value == "?.") && c.check kind) = false := by
    simp [Cursor.check, hc.current, hn, hk.symm]
  refine takes_then (takes_eatIf_false (hno .leftBracket (by simp))) ?_
  refine takes_then (takes_eatIf_false (hno .leftParen (by simp))) ?_
  refine takes_then (takes_expect _ hn (by simp)) (takes_after (takes_locate name) fun loc => ?_)
  exact takes_pure ⟨loc, by rw [hv]⟩

/-- The key after a safe dot. -/
theorem takes_dotMember_key {opening closing : Token} (ht : t.isOperator "?.")
    (ho : opening.kind = .leftBracket) (hc : closing.kind = .rightBracket)
    (hk : Takes g.expression before (closing :: us) p) :
    Takes (dotMember g t base) (opening :: before) us
      fun e => ∃ loc key, e = .index loc base key true ∧ p key := by
  have hv := (Token.isOperator_iff.1 ht).2
  refine takes_then (takes_eatIf_true (by simp [ho]) fun c hc => ?_) ?_
  · simp [Cursor.check, hc.current, ho, hv]
  · refine takes_bind hk fun key hkey => takes_after (takes_expect _ hc (by simp)) fun _ => ?_
    exact takes_after (takes_locate t) fun loc => takes_pure ⟨loc, key, rfl, hkey⟩

/-- The arguments after a safe dot. -/
theorem takes_dotMember_call {opening closing : Token} {p : List Element → Prop}
    (ht : t.isOperator "?.") (ho : opening.kind = .leftParen) (hc : closing.kind = .rightParen)
    (ha : Takes (arguments g) before (closing :: us) p) :
    Takes (dotMember g t base) (opening :: before) us
      fun e => ∃ loc args, e = .call loc base args true ∧ p args := by
  have hv := (Token.isOperator_iff.1 ht).2
  refine takes_then (takes_eatIf_false fun c hc => ?_) ?_
  · simp [Cursor.check, hc.current, ho]
  refine takes_then (takes_eatIf_true (by simp [ho]) fun c hc => ?_) ?_
  · simp [Cursor.check, hc.current, ho, hv]
  · refine takes_bind ha fun args hargs => takes_after (takes_expect _ hc (by simp)) fun _ => ?_
    exact takes_after (takes_locate t) fun loc => takes_pure ⟨loc, args, rfl, hargs⟩

/-- The key in brackets. -/
theorem takes_bracketMember {closing : Token} (clause : Clause) (hc : closing.kind = .rightBracket)
    (hk : Takes g.expression before (closing :: us) p) :
    Takes (bracketMember g t base clause) before us
      fun e => ∃ loc key, e = .index loc base key false ∧ p key :=
  takes_bind hk fun key hkey => takes_after (takes_expect _ hc (by simp)) fun _ =>
    takes_after (takes_locate t) fun loc => takes_pure ⟨loc, key, rfl, hkey⟩

/-- A callee and its arguments, after the word that starts them. -/
theorem takes_callParts {callee : Expr} {cs : List Token} {opening closing : Token}
    {p : List Element → Prop} (h : RendersCallee callee cs) (ho : opening.kind = .leftParen)
    (hc : closing.kind = .rightParen) (ha : Takes (arguments g) before (closing :: us) p) :
    Takes (callParts g) (cs ++ opening :: before) us
      fun found => found.1.unlocated = callee.unlocated ∧ p found.2 := by
  obtain ⟨first, cs, rfl, hk⟩ := h.first
  refine takes_then (takes_expect _ hk (by simp)) ?_
  refine takes_bind (takes_callee _ h (by simp [Token.isOperator, Token.is, ho]))
    fun _ htarget => ?_
  refine takes_after (takes_expect _ ho (by simp)) fun _ => takes_bind ha fun args hargs => ?_
  exact takes_after (takes_expect _ hc (by simp)) fun _ => takes_pure ⟨htarget, hargs⟩

/-- A call. -/
theorem takes_atom_call {after : List Token} {p : Expr × List Element → Prop}
    (ht : t.isKeyword "call") (hc : Takes (callParts g) before after p) :
    Takes (atom g) (t :: before) after
      fun e => ∃ loc target args, e = .call loc target args false ∧ p (target, args) := by
  obtain ⟨hk, hv⟩ := Token.isKeyword_iff.1 ht
  refine takes_then takes_current ?_
  rw [hk]
  simp only [wordAtom]
  rw [if_neg (by simp [hv]), if_pos (by simp [hv])]
  refine takes_after (takes_advance (by simp [hk])) fun _ => takes_bind hc fun found hfound => ?_
  exact takes_after (takes_locate t) fun loc => takes_pure ⟨loc, _, _, rfl, hfound⟩

/-- A pipe, and what follows it. -/
theorem takes_pipes_more {bound : Nat} {q : Expr × List Element → Prop} (ht : t.isOperator "|>")
    (hc : Takes (pipeCallee g) us (stop :: after) q) (hb : bound ≠ 0)
    (hs : stop.isOperator "|>" = false) :
    Takes (pipes g (bound + 1) base) (t :: us) (stop :: after)
      fun e => ∃ loc target args, e = .pipe loc base target args ∧ q (target, args) := by
  refine takes_then takes_current ?_
  rw [if_pos ht]
  refine takes_after (takes_advance (by simp [(Token.isOperator_iff.1 ht).1])) fun _ => ?_
  refine takes_bind hc fun found hfound => takes_after (takes_locate t) fun loc => ?_
  exact takes_pipes_none hb hs ⟨loc, _, _, rfl, hfound⟩

/-- The callee of a pipe without arguments. -/
theorem takes_pipeCallee_bare {callee : Expr} {cs : List Token} (h : RendersCallee callee cs)
    (hd : stop.isOperator "." = false) (hp : stop.kind ≠ .leftParen) :
    Takes (pipeCallee g) (cs ++ stop :: us) (stop :: us)
      fun found => found.1.unlocated = callee.unlocated ∧ found.2 = [] := by
  obtain ⟨first, cs, rfl, hk⟩ := h.first
  refine takes_then takes_current ?_
  rw [if_neg (by simp [Token.isKeyword, Token.is, hk])]
  refine takes_then (takes_expect _ hk (by simp)) ?_
  refine takes_bind (takes_callee _ h hd) fun _ htarget => takes_then (takes_eat_other hp) ?_
  exact takes_pure ⟨htarget, rfl⟩

/-- The callee of a pipe with arguments. -/
theorem takes_pipeCallee_call {callee : Expr} {cs : List Token} {opening closing : Token}
    {p : List Element → Prop} (h : RendersCallee callee cs) (ho : opening.kind = .leftParen)
    (hc : closing.kind = .rightParen) (ha : Takes (arguments g) before (closing :: us) p) :
    Takes (pipeCallee g) (cs ++ opening :: before) us
      fun found => found.1.unlocated = callee.unlocated ∧ p found.2 := by
  obtain ⟨first, cs, rfl, hk⟩ := h.first
  refine takes_then takes_current ?_
  rw [if_neg (by simp [Token.isKeyword, Token.is, hk])]
  refine takes_then (takes_expect _ hk (by simp)) ?_
  refine takes_bind (takes_callee _ h (by simp [Token.isOperator, Token.is, ho]))
    fun _ htarget => ?_
  refine takes_then (takes_eat ho (by simp)) (takes_bind ha fun args hargs => ?_)
  exact takes_after (takes_expect _ hc (by simp)) fun _ => takes_pure ⟨htarget, hargs⟩

/-- The choice between two callees. -/
theorem takes_pipeCallee_choice {follows otherwise : Token} {mid' : List Token}
    {r : Expr → Prop} (ht : t.isKeyword "if") (hf : follows.isKeyword "then")
    (ho : otherwise.isKeyword "else") (hcond : Takes g.expression before (follows :: mid) p)
    (hyes : Takes g.expression mid (otherwise :: mid') q) (hno : Takes g.expression mid' after r) :
    Takes (pipeCallee g) (t :: before) after fun found => ∃ loc cond yes no,
      found = (.inlineIf loc cond yes no, []) ∧ p cond ∧ q yes ∧ r no := by
  refine takes_then takes_current ?_
  rw [if_pos ht]
  refine takes_after (takes_advance (by simp [(Token.isKeyword_iff.1 ht).1])) fun _ => ?_
  have hchoice : Takes (choiceCallee g t) before after fun e => ∃ loc cond yes no,
      e = .inlineIf loc cond yes no ∧ p cond ∧ q yes ∧ r no :=
    takes_bind hcond fun cond h₁ => takes_after (takes_expectWord _ hf) fun _ =>
      takes_bind hyes fun yes h₂ => takes_after (takes_expectWord _ ho) fun _ =>
        takes_bind hno fun no h₃ => takes_after (takes_locate t) fun loc =>
          takes_pure ⟨loc, cond, yes, no, rfl, h₁, h₂, h₃⟩
  refine takes_bind hchoice fun _ hfound => ?_
  obtain ⟨loc, cond, yes, no, rfl, h⟩ := hfound
  exact takes_pure ⟨loc, cond, yes, no, rfl, h⟩

end Rules

end Grammar

end ScriptLang
