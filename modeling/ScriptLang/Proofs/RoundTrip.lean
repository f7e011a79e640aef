import Mathlib
import ScriptLang.Proofs.Renderable
import ScriptLang.Proofs.TakesExpression

/-!
# Rendered expressions are read back

There is no precedence and there are no separators between operands, and yet no text is ambiguous:
where an expression ends, and what a minus sign does, is decided by the next token.

* `Phrase.Taken` says of a phrase and its tokens that the parser of the phrase takes these tokens
  and nothing else, and yields the phrase up to its places. An operand that stands without
  parentheses may be followed by another operand, every other expression only by a token that ends
  it.
* `Renders.taken` proves it of every rendering, by induction on the rendering; there is one lemma
  for each way to render, and each is a walk through the rule of the grammar.
* **Main statement**, `expression_round_trip`: an expression that the parser can build, and in which
  there is no function literal, has renderings, and each of them is read back as the expression. The
  bound on the depth is a little above the number of tokens, and so below the one that
  `Program.parse` takes.
-/

namespace ScriptLang

/-- Tokens in parentheses, or as they are. -/
theorem Encloses.cases {bare : Bool} {ts us : List Token} (h : Encloses bare ts us) :
    (bare = true ∧ us = ts) ∨ (bare = false ∧ ∃ opening closing : Token,
      opening.kind = .leftParen ∧ closing.kind = .rightParen ∧
        us = opening :: (ts ++ [closing])) := by
  cases h with
  | bare => exact .inl ⟨rfl, rfl⟩
  | wrapped ho hc => exact .inr ⟨rfl, _, _, ho, hc, rfl⟩

/-- An operand starts with a token that no expression ends at. -/
theorem Renders.leads {e : Expr} {ts ts' : List Token} (h : Renders (.expr e) ts)
    (hw : Encloses e.isBare ts ts') : ∃ t us, ts' = t :: us ∧ t.Leads := by
  rcases hw.cases with ⟨hb, rfl⟩ | ⟨-, opening, closing, ho, -, rfl⟩
  · cases h with
    | ident hk => exact ⟨_, _, rfl, Token.leads_of_identifier hk⟩
    | literal hl => exact ⟨_, _, rfl, (Token.leads_of_literal hl).1⟩
    | binary ho hop => exact ⟨_, _, rfl, Token.leads_of_operation ho hop⟩
    | not ho => exact ⟨_, _, rfl, Token.leads_of_not ho⟩
    | _ => cases hb
  · exact ⟨_, _, rfl, Token.leads_of_leftParen ho⟩

/-- The base of a member starts a primary. -/
theorem Renders.leads_base {e : Expr} {ts ts' : List Token} (h : Renders (.expr e) ts)
    (hw : Encloses e.isSingle ts ts') :
    ∃ t us, ts' = t :: us ∧ t.Leads ∧ Grammar.isOperation t = false := by
  rcases hw.cases with ⟨hb, rfl⟩ | ⟨-, opening, closing, ho, -, rfl⟩
  · cases h with
    | ident hk =>
      exact ⟨_, _, rfl, Token.leads_of_identifier hk, by simp [Grammar.isOperation, hk]⟩
    | literal hl => exact ⟨_, _, rfl, Token.leads_of_literal hl⟩
    | _ => cases hb
  · exact ⟨_, _, rfl, Token.leads_of_leftParen ho, by simp [Grammar.isOperation, ho]⟩

/-- What a phrase starts with. Only lists may be empty. -/
def Phrase.Opened : Phrase → List Token → Prop
  | .expr _, ts => ∃ t us, ts = t :: us ∧ t.kind.opensExpression = true
  | .element _, ts | .entry _, ts | .elements (_ :: _), ts | .entries (_ :: _), ts =>
    ∃ t us, ts = t :: us ∧ t.Opens
  | .elements [], _ | .entries [], _ | .parts _, _ => True

theorem Renders.opened {phrase : Phrase} {ts : List Token} (h : Renders phrase ts) :
    phrase.Opened ts := by
  induction h with
  | ident hk => exact ⟨_, _, rfl, (Token.leads_of_identifier hk).opens⟩
  | literal hl => exact ⟨_, _, rfl, (Token.leads_of_literal hl).1.opens⟩
  | binary ho hop => exact ⟨_, _, rfl, (Token.leads_of_operation ho hop).opens⟩
  | not ho => exact ⟨_, _, rfl, (Token.leads_of_not ho).opens⟩
  | neg ho => exact ⟨_, _, rfl, by rw [(Token.isOperator_iff.1 ho).1]; rfl⟩
  | call ho => exact ⟨_, _, rfl, by rw [(Token.isKeyword_iff.1 ho).1]; rfl⟩
  | array ho | object ho | template ho => exact ⟨_, _, rfl, by rw [ho]; rfl⟩
  | property h hw | index h hw | safeIndex h hw | safeCall h hw | pipe h hw | pipeCall h hw
  | pipeChoice h hw =>
    obtain ⟨t, us, rfl, hl, -⟩ := h.leads_base hw
    exact ⟨_, _, rfl, hl.opens⟩
  | spread ho | merged ho => exact ⟨_, _, rfl, .inl ho⟩
  | keyed ho => exact ⟨_, _, rfl, .inr (by rw [ho]; rfl)⟩
  | item _ ih =>
    obtain ⟨t, us, rfl, ho⟩ := ih
    exact ⟨_, _, rfl, .inr ho⟩
  | lastElement _ ih | lastEntry _ ih => exact ih
  | moreElements _ _ _ ih | moreEntries _ _ _ ih =>
    obtain ⟨t, us, rfl, ho⟩ := ih
    exact ⟨_, _, rfl, ho⟩
  | noElements | noEntries | noParts | text | interpolation => trivial

/-! ### Rendered phrases -/

namespace Grammar

@[simp] theorem expression_succ (n : Nat) :
    (ofBound (n + 1)).expression = expressionWith (ofBound n) := rfl

theorem ofBound_bound (n : Nat) : (ofBound n).bound = n - 1 := by cases n <;> rfl

end Grammar

/-- **A phrase is taken back.** The parser of the phrase takes exactly the tokens, if its bound is
large enough and what follows them ends the phrase, and yields the phrase up to its places. After an
operand that stands without parentheses another operand may follow. -/
def Phrase.Taken : Phrase → List Token → Prop
  | .expr e, ts => ∀ n stop us, ts.length + 2 ≤ n →
      (stop.endsExpression = true ∨ e.isBare = true ∧ stop.Separates) →
      (Grammar.ofBound n).expression.Takes (ts ++ stop :: us) (stop :: us)
        (·.unlocated = e.unlocated)
  | .element e, ts => ∀ n stop us, ts.length + 2 ≤ n → stop.endsExpression = true →
      (Grammar.element (.ofBound n)).Takes (ts ++ stop :: us) (stop :: us)
        (·.unlocated = e.unlocated)
  | .elements es, ts => es ≠ [] → ∀ n bound stop us, ts.length + 2 ≤ n → ts.length < bound →
      stop.endsExpression = true → stop.kind ≠ .comma →
      (Grammar.elements (.ofBound n) bound).Takes (ts ++ stop :: us) (stop :: us)
          (unlocatedElements · = unlocatedElements es) ∧
        (Grammar.items (.ofBound n) bound).Takes (ts ++ stop :: us) (stop :: us)
          (unlocatedElements · = unlocatedElements es)
  | .entry e, ts => ∀ first n stop us, ts.length + 2 ≤ n → stop.endsExpression = true →
      (Grammar.entry (.ofBound n) first).Takes (ts ++ stop :: us) (stop :: us)
        (·.unlocated = e.unlocated)
  | .entries es, ts => es ≠ [] → ∀ first n bound stop us, ts.length + 2 ≤ n → ts.length < bound →
      stop.endsExpression = true → stop.kind ≠ .comma →
      (Grammar.keyedEntries (.ofBound n) first bound).Takes (ts ++ stop :: us) (stop :: us)
        (unlocatedEntries · = unlocatedEntries es)
  | .parts ps, ts => ∀ n bound stop us, ts.length + 2 ≤ n → ts.length < bound →
      stop.kind = .backtick →
      (Grammar.parts (.ofBound n) bound).Takes (ts ++ stop :: us) (stop :: us)
        (unlocatedParts · = unlocatedParts ps)

namespace Grammar

open ScriptLang.Parser

section Phrases

variable {e base left right operand : Expr} {ts ts' us : List Token}
  {t stop opening closing : Token}

attribute [local simp] Expr.isBare Expr.unlocated Element.unlocated unlocatedElements
  Entry.unlocated unlocatedEntries Part.unlocated unlocatedParts

/-- The rule for expressions, one level down. -/
theorem taken_expr (h : ∀ n stop us, ts.length < n →
    (stop.endsExpression = true ∨ e.isBare = true ∧ stop.Separates) →
    Takes (expressionWith (ofBound n)) (ts ++ stop :: us) (stop :: us)
      (·.unlocated = e.unlocated)) : Phrase.Taken (.expr e) ts := by
  intro n stop us hn hs
  obtain ⟨n, rfl⟩ := Nat.exists_eq_add_of_le' (Nat.le_trans (Nat.le_add_left 1 _) hn)
  exact h n stop us (by omega) hs

theorem separates_of (h : stop.endsExpression = true ∨ e.isBare = true ∧ stop.Separates) :
    stop.Separates :=
  h.elim Token.separates_of_ends And.right

/-- The base of a member, or a piped value. -/
theorem takes_base (ih : Phrase.Taken (.expr base) ts) (h : Renders (.expr base) ts)
    (hw : Encloses base.isSingle ts ts') {n : Nat} (hn : ts'.length ≤ n) :
    Takes (atom (ofBound n)) (ts' ++ us) us (·.unlocated = base.unlocated) := by
  rcases hw.cases with ⟨hb, rfl⟩ | ⟨-, opening, closing, ho, hc, rfl⟩
  · cases h with
    | ident hk => exact takes_atom_ident hk
    | literal hl => exact takes_atom_literal hl
    | _ => cases hb
  · have hlen : ts.length + 2 ≤ n := by
      simp only [List.length_cons, List.length_append, List.length_nil] at hn
      omega
    simpa using takes_atom_wrapped ho hc
      (ih n closing us hlen (.inl (by simp [Token.endsExpression_eq, hc])))

/-- An operand. -/
theorem takes_enclosed (ih : Phrase.Taken (.expr operand) ts)
    (hw : Encloses operand.isBare ts ts') {n : Nat} (hn : ts'.length + 2 ≤ n)
    (hs : stop.Separates) :
    Takes (ofBound n).expression (ts' ++ stop :: us) (stop :: us)
      (·.unlocated = operand.unlocated) := by
  rcases hw.cases with ⟨hb, rfl⟩ | ⟨-, opening, closing, ho, hc, rfl⟩
  · exact ih n stop us hn (.inr ⟨hb, hs⟩)
  · obtain ⟨n, rfl⟩ := Nat.exists_eq_add_of_le' (Nat.le_trans (Nat.le_add_left 1 _) hn)
    simp only [List.length_cons, List.length_append, List.length_nil] at hn
    have hinner := takes_atom_wrapped ho hc
      (ih n closing (stop :: us) (by omega) (.inl (by simp [Token.endsExpression_eq, hc])))
    have hb : (ofBound n).bound ≠ 0 := by
      rw [ofBound_bound]
      omega
    have := takes_atom_only (by simp [isOperation, ho]) hinner hb hs
    simpa using this

theorem bound_ne_zero {n : Nat} (hn : 2 ≤ n) : (ofBound n).bound ≠ 0 := by
  rw [ofBound_bound]
  omega

/-! #### Names, literals and operators -/

theorem taken_ident {loc : Location} (hk : t.kind = .identifier) :
    Phrase.Taken (.expr (.ident loc t.value)) [t] := by
  refine taken_expr fun n stop us hn hs => ?_
  exact takes_atom_only (by simp [isOperation, hk]) (takes_atom_ident hk) (bound_ne_zero hn)
    (separates_of hs)

theorem taken_literal {loc : Location} {value : Literal} (hl : t.literal? = some value) :
    Phrase.Taken (.expr (.literal loc value)) [t] := by
  refine taken_expr fun n stop us hn hs => ?_
  have ho : isOperation t = false := by
    unfold Token.literal? at hl
    unfold isOperation
    split at hl <;> simp_all
  exact takes_atom_only ho (takes_atom_literal hl) (bound_ne_zero hn) (separates_of hs)

theorem taken_binary {loc : Location} {op : BinaryOp} {ls ls' rs rs' : List Token}
    (ho : isOperation t) (hop : BinaryOp.ofSymbol? t.value = some op)
    (ihl : Phrase.Taken (.expr left) ls) (hwl : Encloses left.isBare ls ls')
    (hr : Renders (.expr right) rs) (ihr : Phrase.Taken (.expr right) rs)
    (hwr : Encloses right.isBare rs rs') :
    Phrase.Taken (.expr (.binary loc op left right)) (t :: (ls' ++ rs')) := by
  refine taken_expr fun n stop us hn hs => ?_
  -- `u` is the first token of the right operand; reading the left one stops in front of it.
  obtain ⟨u, rest, rfl, hu⟩ := hr.leads hwr
  simp only [List.length_cons, List.length_append] at hn
  have hleft : Takes (ofBound n).expression (ls' ++ u :: (rest ++ stop :: us))
      (u :: (rest ++ stop :: us)) (·.unlocated = left.unlocated) :=
    takes_enclosed ihl hwl (by omega) hu.toSeparates
  have hright : Takes (ofBound n).expression (u :: (rest ++ stop :: us)) (stop :: us)
      (·.unlocated = right.unlocated) :=
    takes_enclosed ihr hwr (by simp only [List.length_cons]; omega) (separates_of hs)
  have h := takes_expressionWith
    (takes_operand_operation ho (takes_operation_binary hop hleft hu.goesOn hright))
    (bound_ne_zero (by omega)) (separates_of hs).bar
  simp only [List.cons_append, List.append_assoc]
  refine h.mono ?_
  rintro _ ⟨loc, l, r, rfl, hl, hr⟩
  simp [hl, hr]

theorem taken_not {loc : Location} (ho : t.isKeyword "not")
    (ih : Phrase.Taken (.expr operand) ts) (hw : Encloses operand.isBare ts ts') :
    Phrase.Taken (.expr (.unary loc .not operand)) (t :: ts') := by
  refine taken_expr fun n stop us hn hs => ?_
  have hk := Token.isKeyword_iff.1 ho
  have hoperand : Takes (ofBound n).expression (ts' ++ stop :: us) (stop :: us)
      (·.unlocated = operand.unlocated) := takes_enclosed ih hw hn (separates_of hs)
  have h := takes_expressionWith
    (takes_operand_operation (by simp [isOperation, hk]) (takes_operation_not ho hoperand))
    (bound_ne_zero (by simp at hn; omega)) (separates_of hs).bar
  refine h.mono ?_
  rintro _ ⟨loc, a, rfl, ha⟩
  simp [ha]

theorem taken_neg {loc : Location} (ho : t.isOperator "-")
    (ih : Phrase.Taken (.expr operand) ts) (hw : Encloses operand.isBare ts ts') :
    Phrase.Taken (.expr (.unary loc .neg operand)) (t :: ts') := by
  refine taken_expr fun n stop us hn hs => ?_
  have hk := Token.isOperator_iff.1 ho
  -- A second operand must not follow.
  have hend : stop.endsExpression = true := hs.resolve_right (by simp)
  have hoperand : Takes (ofBound n).expression (ts' ++ stop :: us) (stop :: us)
      (·.unlocated = operand.unlocated) := takes_enclosed ih hw hn (separates_of hs)
  have h := takes_expressionWith
    (takes_operand_operation (by simp [isOperation, hk]) (takes_operation_neg ho hoperand hend))
    (bound_ne_zero (by simp at hn; omega)) (separates_of hs).bar
  refine h.mono ?_
  rintro _ ⟨loc, a, rfl, ha⟩
  simp [ha]

/-! #### Containers and templates -/

/-- The rule for primaries takes an array literal. -/
theorem takes_renderedArray {items : List Element} (ho : opening.kind = .leftBracket)
    (hc : closing.kind = .rightBracket) (hi : Renders (.elements items) ts)
    (ih : Phrase.Taken (.elements items) ts) {n : Nat} (hn : ts.length + 2 ≤ n) :
    Takes (atom (ofBound n)) (opening :: (ts ++ closing :: us)) us
      (·.unlocated = .array default (unlocatedElements items)) := by
  refine takes_atom_array ho ?_
  cases items with
  | nil =>
    cases hi
    refine takes_then (takes_check _) ?_
    rw [if_pos (by simpa using hc)]
    refine takes_then (takes_pure rfl) (takes_after (takes_expect _ hc (by simp)) fun _ => ?_)
    exact takes_after (takes_locate _) fun _ => takes_pure (by simp)
  | cons e es =>
    -- The first token of the elements is no closing bracket.
    obtain ⟨t, rest, rfl, ht⟩ := hi.opened
    have hitems := (ih (by simp) n (ofBound n).bound closing us (by omega)
      (by rw [ofBound_bound]; omega) (by simp [Token.endsExpression_eq, hc]) (by simp [hc])).2
    refine (takes_array ht hc hitems).mono ?_
    rintro _ ⟨loc, es, rfl, hes⟩
    simp [hes]

theorem taken_array {loc : Location} {items : List Element} (ho : opening.kind = .leftBracket)
    (hc : closing.kind = .rightBracket) (hi : Renders (.elements items) ts)
    (ih : Phrase.Taken (.elements items) ts) :
    Phrase.Taken (.expr (.array loc items)) (opening :: (ts ++ [closing])) := by
  refine taken_expr fun n stop us hn hs => ?_
  simp only [List.length_cons, List.length_append, List.length_nil] at hn
  have hatom : Takes (atom (ofBound n)) (opening :: (ts ++ closing :: stop :: us)) (stop :: us) _ :=
    takes_renderedArray ho hc hi ih (by omega)
  have h := takes_atom_only (by simp [isOperation, ho]) hatom (bound_ne_zero (by omega))
    (separates_of hs)
  simpa only [List.cons_append, List.append_assoc, List.nil_append, Expr.unlocated] using h

/-- The rule for primaries takes an object literal. -/
theorem takes_renderedObject {entries : List Entry} (ho : opening.kind = .leftBrace)
    (hc : closing.kind = .rightBrace) (hi : Renders (.entries entries) ts)
    (ih : Phrase.Taken (.entries entries) ts) {n : Nat} (hn : ts.length + 2 ≤ n) :
    Takes (atom (ofBound n)) (opening :: (ts ++ closing :: us)) us
      (·.unlocated = .object default (unlocatedEntries entries)) := by
  refine takes_atom_object ho ?_
  cases entries with
  | nil =>
    cases hi
    refine takes_then (takes_check _) ?_
    rw [if_pos (by simpa using hc)]
    refine takes_then (takes_pure rfl) (takes_after (takes_expect _ hc (by simp)) fun _ => ?_)
    exact takes_after (takes_locate _) fun _ => takes_pure (by simp)
  | cons e es =>
    obtain ⟨t, rest, rfl, ht⟩ := hi.opened
    have hentries := ih (by simp) true n (ofBound n).bound closing us (by omega)
      (by rw [ofBound_bound]; omega) (by simp [Token.endsExpression_eq, hc]) (by simp [hc])
    refine (takes_object ht hc hentries).mono ?_
    rintro _ ⟨loc, es, rfl, hes⟩
    simp [hes]

theorem taken_object {loc : Location} {entries : List Entry} (ho : opening.kind = .leftBrace)
    (hc : closing.kind = .rightBrace) (hi : Renders (.entries entries) ts)
    (ih : Phrase.Taken (.entries entries) ts) :
    Phrase.Taken (.expr (.object loc entries)) (opening :: (ts ++ [closing])) := by
  refine taken_expr fun n stop us hn hs => ?_
  simp only [List.length_cons, List.length_append, List.length_nil] at hn
  have hatom : Takes (atom (ofBound n)) (opening :: (ts ++ closing :: stop :: us)) (stop :: us) _ :=
    takes_renderedObject ho hc hi ih (by omega)
  have h := takes_atom_only (by simp [isOperation, ho]) hatom (bound_ne_zero (by omega))
    (separates_of hs)
  simpa only [List.cons_append, List.append_assoc, List.nil_append, Expr.unlocated] using h

/-- The rule for primaries takes a template. -/
theorem takes_renderedTemplate {ps : List Part} (ho : opening.kind = .backtick)
    (hc : closing.kind = .backtick) (ih : Phrase.Taken (.parts ps) ts) {n : Nat}
    (hn : ts.length + 2 ≤ n) :
    Takes (atom (ofBound n)) (opening :: (ts ++ closing :: us)) us
      (·.unlocated = .template default (unlocatedParts ps)) := by
  refine takes_atom_template ho ?_
  refine takes_bind (ih n (ofBound n).bound closing us (by omega)
    (by rw [ofBound_bound]; omega) hc) fun found hfound => ?_
  exact takes_after (takes_expect _ hc (by simp)) fun _ =>
    takes_after (takes_locate _) fun _ => takes_pure (by simp [hfound])

theorem taken_template {loc : Location} {ps : List Part} (ho : opening.kind = .backtick)
    (hc : closing.kind = .backtick) (ih : Phrase.Taken (.parts ps) ts) :
    Phrase.Taken (.expr (.template loc ps)) (opening :: (ts ++ [closing])) := by
  refine taken_expr fun n stop us hn hs => ?_
  simp only [List.length_cons, List.length_append, List.length_nil] at hn
  have hatom : Takes (atom (ofBound n)) (opening :: (ts ++ closing :: stop :: us)) (stop :: us) _ :=
    takes_renderedTemplate ho hc ih (by omega)
  have h := takes_atom_only (by simp [isOperation, ho]) hatom (bound_ne_zero (by omega))
    (separates_of hs)
  simpa only [List.cons_append, List.append_assoc, List.nil_append, Expr.unlocated] using h

/-- Arguments up to the closing parenthesis. -/
theorem takes_argumentList {args : List Element} (hi : Renders (.elements args) ts)
    (ih : Phrase.Taken (.elements args) ts) {n : Nat} (hn : ts.length + 2 ≤ n)
    (hc : closing.kind = .rightParen) :
    Takes (arguments (ofBound n)) (ts ++ closing :: us) (closing :: us)
      (unlocatedElements · = unlocatedElements args) := by
  cases args with
  | nil =>
    cases hi
    exact (takes_arguments_none hc).mono fun _ h => by rw [h]
  | cons e es =>
    obtain ⟨t, rest, rfl, ht⟩ := hi.opened
    exact takes_arguments ht (ih (by simp) n (ofBound n).bound closing us hn
      (by rw [ofBound_bound]; omega) (by simp [Token.endsExpression_eq, hc]) (by simp [hc])).1

/-! #### Members, calls and pipes -/

/-- A base with one member, whose tokens are `ms`. -/
theorem taken_member {bs bs' ms : List Token} (h : Renders (.expr base) bs)
    (ih : Phrase.Taken (.expr base) bs) (hw : Encloses base.isSingle bs bs') (hne : ms ≠ [])
    (hm : ∀ n bound a stop us, ms.length < n → bound ≠ 0 → a.unlocated = base.unlocated →
      Token.EndsPrimary stop → Takes (members (ofBound n) (bound + 1) a) (ms ++ stop :: us)
        (stop :: us) (·.unlocated = e.unlocated)) :
    Phrase.Taken (.expr e) (bs' ++ ms) := by
  refine taken_expr fun n stop us hn hs => ?_
  obtain ⟨t, rest, rfl, -, ho⟩ := h.leads_base hw
  have hpos := List.length_pos_iff.2 hne
  simp only [List.length_append, List.length_cons] at hn
  obtain ⟨bound, he, hb⟩ : ∃ bound, (ofBound n).bound = bound + 1 ∧ bound ≠ 0 :=
    ⟨n - 2, by rw [ofBound_bound]; omega, by omega⟩
  have hprimary : Takes (primary (ofBound n)) (t :: rest ++ (ms ++ stop :: us)) (stop :: us)
      (·.unlocated = e.unlocated) := by
    refine takes_bind (takes_base ih h hw (by simp only [List.length_cons]; omega)) fun a ha => ?_
    rw [he]
    exact hm n bound a stop us (by omega) hb ha (separates_of hs).toEndsPrimary
  rw [List.append_assoc]
  exact takes_expressionWith (takes_operand_primary ho hprimary) (by omega) (separates_of hs).bar

section Members

variable {loc : Location} {key : Expr} {bs bs' ks : List Token} {dot name : Token}
  (h : Renders (.expr base) bs) (ih : Phrase.Taken (.expr base) bs)
  (hw : Encloses base.isSingle bs bs')
include h ih hw

theorem taken_property {safe : Bool} (hd : dot.isOperator (if safe then "?." else "."))
    (hn : name.kind = .identifier) :
    Phrase.Taken (.expr (.property loc base name.value safe)) (bs' ++ [dot, name]) := by
  have hdot : dot.isOperator "." ∨ dot.isOperator "?." := by cases safe <;> simp_all
  refine taken_member h ih hw (by simp) fun n bound a stop us _ hb ha hs => ?_
  refine takes_members_dot hdot (takes_dotMember_name hd hn) ?_
  rintro _ ⟨loc, rfl⟩
  exact takes_members_none hb hs (by simp [ha])

theorem taken_index (ho : opening.kind = .leftBracket) (ihk : Phrase.Taken (.expr key) ks)
    (hc : closing.kind = .rightBracket) :
    Phrase.Taken (.expr (.index loc base key false)) (bs' ++ opening :: (ks ++ [closing])) := by
  refine taken_member h ih hw (by simp) fun n bound a stop us hn hb ha hs => ?_
  simp only [List.length_cons, List.length_append, List.length_nil] at hn
  have hkey := ihk n closing (stop :: us) (by omega) (.inl (by simp [Token.endsExpression_eq, hc]))
  simp only [List.cons_append, List.append_assoc, List.nil_append]
  refine takes_members_bracket ho (fun clause => takes_bracketMember clause hc hkey) ?_
  rintro _ ⟨loc, k, rfl, hk⟩
  exact takes_members_none hb hs (by simp [ha, hk])

theorem taken_safeIndex (hd : dot.isOperator "?.") (ho : opening.kind = .leftBracket)
    (ihk : Phrase.Taken (.expr key) ks) (hc : closing.kind = .rightBracket) :
    Phrase.Taken (.expr (.index loc base key true))
      (bs' ++ dot :: opening :: (ks ++ [closing])) := by
  refine taken_member h ih hw (by simp) fun n bound a stop us hn hb ha hs => ?_
  simp only [List.length_cons, List.length_append, List.length_nil] at hn
  have hkey := ihk n closing (stop :: us) (by omega) (.inl (by simp [Token.endsExpression_eq, hc]))
  simp only [List.cons_append, List.append_assoc, List.nil_append]
  refine takes_members_dot (.inr hd) (takes_dotMember_key hd ho hc hkey) ?_
  rintro _ ⟨loc, k, rfl, hk⟩
  exact takes_members_none hb hs (by simp [ha, hk])

theorem taken_safeCall {args : List Element} (hd : dot.isOperator "?.")
    (ho : opening.kind = .leftParen) (hi : Renders (.elements args) ts)
    (iha : Phrase.Taken (.elements args) ts) (hc : closing.kind = .rightParen) :
    Phrase.Taken (.expr (.call loc base args true))
      (bs' ++ dot :: opening :: (ts ++ [closing])) := by
  refine taken_member h ih hw (by simp) fun n bound a stop us hn hb ha hs => ?_
  simp only [List.length_cons, List.length_append, List.length_nil] at hn
  simp only [List.cons_append, List.append_assoc, List.nil_append]
  refine takes_members_dot (.inr hd)
    (takes_dotMember_call hd ho hc (takes_argumentList hi iha (by omega) hc)) ?_
  rintro _ ⟨loc, found, rfl, hfound⟩
  exact takes_members_none hb hs (by simp [ha, hfound])

/-- A piped value. -/
theorem takes_piped {n : Nat} (hn : bs'.length ≤ n) (hb : 2 ≤ n) (hd : dot.isOperator "|>") :
    Takes (Grammar.operand (ofBound n)) (bs' ++ dot :: us) (dot :: us)
      (·.unlocated = base.unlocated) := by
  obtain ⟨t, rest, rfl, -, ho⟩ := h.leads_base hw
  have hk := Token.isOperator_iff.1 hd
  have hends : dot.EndsPrimary := by
    refine ⟨?_, ?_, by simp [hk]⟩ <;> simp [Token.isOperator, Token.is, hk]
  exact takes_operand_primary ho
    (takes_primary (takes_base ih h hw hn) (bound_ne_zero hb) hends)

/-- A value with one pipe, whose callee has the tokens `ms`. -/
theorem taken_pipe {callee : Expr} {args : List Element} {ms : List Token}
    (hd : dot.isOperator "|>") (hm : ∀ n stop us, ms.length + 2 ≤ n →
      Token.endsExpression stop = true → Takes (pipeCallee (ofBound n)) (ms ++ stop :: us)
        (stop :: us) fun found => found.1.unlocated = callee.unlocated ∧
          unlocatedElements found.2 = unlocatedElements args) :
    Phrase.Taken (.expr (.pipe loc base callee args)) (bs' ++ dot :: ms) := by
  refine taken_expr fun n stop us hn hs => ?_
  have hend : stop.endsExpression = true := hs.resolve_right (by simp)
  have hpos : 0 < bs'.length := by
    obtain ⟨t, rest, rfl, -⟩ := h.leads_base hw
    exact Nat.succ_pos _
  simp only [List.length_append, List.length_cons] at hn
  obtain ⟨bound, he, hb⟩ : ∃ bound, (ofBound n).bound = bound + 1 ∧ bound ≠ 0 :=
    ⟨n - 2, by rw [ofBound_bound]; omega, by omega⟩
  have hpiped : Takes (Grammar.operand (ofBound n)) (bs' ++ dot :: (ms ++ stop :: us))
      (dot :: (ms ++ stop :: us)) (·.unlocated = base.unlocated) :=
    takes_piped h ih hw (by omega) (by omega) hd
  rw [List.append_assoc]
  refine takes_bind hpiped fun a ha => ?_
  rw [he]
  refine (takes_pipes_more hd (hm n stop us (by omega) hend) hb
    (Token.separates_of_ends hend).bar).mono ?_
  rintro _ ⟨loc, target, found, rfl, hc, hf⟩
  simp [ha, hc, hf]

theorem taken_pipe_bare {callee : Expr} {cs : List Token} (hd : dot.isOperator "|>")
    (hc : RendersCallee callee cs) :
    Phrase.Taken (.expr (.pipe loc base callee [])) (bs' ++ dot :: cs) := by
  refine taken_pipe h ih hw hd fun n stop us _ hs => ?_
  have hparen : stop.kind ≠ .leftParen := fun hk => by simp [Token.endsExpression_eq, hk] at hs
  refine (takes_pipeCallee_bare hc (Token.separates_of_ends hs).dot hparen).mono ?_
  rintro ⟨target, found⟩ ⟨ht, rfl⟩
  exact ⟨ht, rfl⟩

theorem taken_pipe_call {callee : Expr} {args : List Element} {cs : List Token}
    (hd : dot.isOperator "|>") (hc : RendersCallee callee cs) (ho : opening.kind = .leftParen)
    (hi : Renders (.elements args) ts) (iha : Phrase.Taken (.elements args) ts)
    (hp : closing.kind = .rightParen) :
    Phrase.Taken (.expr (.pipe loc base callee args))
      (bs' ++ dot :: (cs ++ opening :: (ts ++ [closing]))) := by
  refine taken_pipe h ih hw hd fun n stop us hn hs => ?_
  simp only [List.length_append, List.length_cons, List.length_nil] at hn
  simp only [List.cons_append, List.append_assoc, List.nil_append]
  exact takes_pipeCallee_call hc ho hp (takes_argumentList hi iha (by omega) hp)

theorem taken_pipe_choice {loc' : Location} {cond yes no : Expr} {cs ys ns : List Token}
    {word follows otherwise : Token} (hd : dot.isOperator "|>") (hi : word.isKeyword "if")
    (ihc : Phrase.Taken (.expr cond) cs) (hf : follows.isKeyword "then")
    (ihy : Phrase.Taken (.expr yes) ys) (ho : otherwise.isKeyword "else")
    (ihn : Phrase.Taken (.expr no) ns) :
    Phrase.Taken (.expr (.pipe loc base (.inlineIf loc' cond yes no) []))
      (bs' ++ dot :: word :: (cs ++ follows :: (ys ++ otherwise :: ns))) := by
  refine taken_pipe h ih hw hd fun n stop us hn hs => ?_
  have hthen := Token.isKeyword_iff.1 hf
  have helse := Token.isKeyword_iff.1 ho
  simp only [List.length_append, List.length_cons] at hn
  simp only [List.cons_append, List.append_assoc]
  have hcond := ihc n follows (ys ++ otherwise :: (ns ++ stop :: us)) (by omega)
    (.inl (by simp [Token.endsExpression_eq, hthen]))
  have hyes := ihy n otherwise (ns ++ stop :: us) (by omega)
    (.inl (by simp [Token.endsExpression_eq, helse, closingWords]))
  have hno := ihn n stop us (by omega) (.inl hs)
  refine (takes_pipeCallee_choice hi hf ho hcond hyes hno).mono ?_
  rintro _ ⟨loc, c, y, z, rfl, hc, hy, hz⟩
  simp [hc, hy, hz]

end Members

theorem taken_call {loc : Location} {word : Token} {callee : Expr} {args : List Element}
    {cs : List Token} (hw : word.isKeyword "call") (hc : RendersCallee callee cs)
    (ho : opening.kind = .leftParen) (hi : Renders (.elements args) ts)
    (iha : Phrase.Taken (.elements args) ts) (hp : closing.kind = .rightParen) :
    Phrase.Taken (.expr (.call loc callee args false))
      (word :: (cs ++ opening :: (ts ++ [closing]))) := by
  refine taken_expr fun n stop us hn hs => ?_
  have hk := Token.isKeyword_iff.1 hw
  simp only [List.length_append, List.length_cons, List.length_nil] at hn
  have hcall : Takes (atom (ofBound n)) (word :: (cs ++ opening :: (ts ++ closing :: stop :: us)))
      (stop :: us) _ :=
    takes_atom_call hw (takes_callParts hc ho hp (takes_argumentList hi iha (by omega) hp))
  have h := takes_atom_only (by simp [isOperation, hk]) hcall (bound_ne_zero (by omega))
    (separates_of hs)
  simp only [List.cons_append, List.append_assoc, List.nil_append]
  refine h.mono ?_
  rintro _ ⟨loc, target, found, rfl, ht, hf⟩
  simp [ht, hf]

/-! #### Elements, entries and parts -/

theorem taken_item (h : Renders (.expr e) ts) (ih : Phrase.Taken (.expr e) ts) :
    Phrase.Taken (.element (.item e)) ts := by
  intro n stop us hn hs
  obtain ⟨t, rest, rfl, ht⟩ := h.opened
  have hspread : t.kind ≠ .spread := fun hk => by simp [hk, TokenKind.opensExpression] at ht
  refine takes_then (takes_eat_other hspread) ?_
  refine takes_bind (ih n stop us hn (.inl hs)) fun a ha => ?_
  exact takes_pure (by simp [ha])

theorem taken_spread {dots : Token} (hd : dots.kind = .spread) (ih : Phrase.Taken (.expr e) ts) :
    Phrase.Taken (.element (.spread e)) (dots :: ts) := by
  intro n stop us hn hs
  refine takes_then (takes_eat hd (by simp)) ?_
  refine takes_bind (ih n stop us (by simp at hn; omega) (.inl hs)) fun a ha => ?_
  exact takes_pure (by simp [ha])

theorem taken_lastElement {item : Element} (ih : Phrase.Taken (.element item) ts) :
    Phrase.Taken (.elements [item]) ts := by
  intro _ n bound stop us hn hb hs hc
  have hitem := ih n stop us hn hs
  constructor
  · obtain ⟨bound, rfl⟩ := Nat.exists_eq_succ_of_ne_zero (Nat.ne_zero_of_lt hb)
    refine takes_bind hitem fun a ha => takes_then (takes_eat_other hc) ?_
    exact takes_pure (by simp [ha])
  · refine takes_bind hitem fun a ha => ?_
    refine takes_then (takes_moreItems_none (Nat.ne_zero_of_lt hb) hc) ?_
    exact takes_pure (by simp [ha])

theorem taken_moreElements {item item' : Element} {es : List Element} {comma : Token}
    {us : List Token} (ih : Phrase.Taken (.element item) ts) (hk : comma.kind = .comma)
    (hi : Renders (.elements (item' :: es)) us) (ih' : Phrase.Taken (.elements (item' :: es)) us) :
    Phrase.Taken (.elements (item :: item' :: es)) (ts ++ comma :: us) := by
  intro _ n bound stop vs hn hb hs hc
  simp only [List.length_append, List.length_cons] at hn hb
  obtain ⟨bound, rfl⟩ := Nat.exists_eq_succ_of_ne_zero (Nat.ne_zero_of_lt hb)
  obtain ⟨t, rest, rfl, ht⟩ := hi.opened
  have hitem := ih n comma (t :: rest ++ stop :: vs) (by omega)
    (by simp [Token.endsExpression_eq, hk])
  obtain ⟨helements, hitems⟩ := ih' (by simp) n bound stop vs (by omega) (by omega) hs hc
  rw [List.append_assoc]
  constructor
  · refine takes_bind hitem fun a ha => takes_then (takes_eat hk (by simp)) ?_
    refine takes_bind helements fun found hfound => ?_
    exact takes_pure (by rw [unlocatedElements, ha, hfound, ← unlocatedElements])
  · refine takes_bind hitem fun a ha => takes_bind (takes_moreItems hk ht hitems) fun found hf => ?_
    exact takes_pure (by rw [unlocatedElements, ha, hf, ← unlocatedElements])

theorem taken_keyed {key colon : Token} (hk : key.kind = .identifier) (hc : colon.kind = .colon)
    (ih : Phrase.Taken (.expr e) ts) :
    Phrase.Taken (.entry (.property key.value e)) (key :: colon :: ts) := by
  intro first n stop us hn hs
  simp only [List.length_cons] at hn
  refine takes_then (takes_eat_other (by simp [hk])) ?_
  refine takes_then (takes_expect _ hk (by simp)) (takes_after (takes_expect _ hc (by simp)) ?_)
  refine fun _ => takes_bind (ih n stop us (by omega) (.inl hs)) fun a ha => ?_
  exact takes_pure (by simp [ha])

theorem taken_merged {dots : Token} (hd : dots.kind = .spread) (ih : Phrase.Taken (.expr e) ts) :
    Phrase.Taken (.entry (.spread e)) (dots :: ts) := by
  intro first n stop us hn hs
  simp only [List.length_cons] at hn
  refine takes_then (takes_eat hd (by simp)) ?_
  refine takes_bind (ih n stop us (by omega) (.inl hs)) fun a ha => ?_
  exact takes_pure (by simp [ha])

theorem taken_lastEntry {entry : Entry} (ih : Phrase.Taken (.entry entry) ts) :
    Phrase.Taken (.entries [entry]) ts := by
  intro _ first n bound stop us hn hb hs hc
  refine takes_bind (ih first n stop us hn hs) fun a ha => ?_
  refine takes_then (takes_moreEntries_none (Nat.ne_zero_of_lt hb) hc) ?_
  exact takes_pure (by simp [ha])

theorem taken_moreEntries {entry entry' : Entry} {es : List Entry} {comma : Token}
    {us : List Token} (ih : Phrase.Taken (.entry entry) ts) (hk : comma.kind = .comma)
    (hi : Renders (.entries (entry' :: es)) us) (ih' : Phrase.Taken (.entries (entry' :: es)) us) :
    Phrase.Taken (.entries (entry :: entry' :: es)) (ts ++ comma :: us) := by
  intro _ first n bound stop vs hn hb hs hc
  simp only [List.length_append, List.length_cons] at hn hb
  obtain ⟨bound, rfl⟩ := Nat.exists_eq_succ_of_ne_zero (Nat.ne_zero_of_lt hb)
  obtain ⟨t, rest, rfl, ht⟩ := hi.opened
  have hentry := ih first n comma (t :: rest ++ stop :: vs) (by omega)
    (by simp [Token.endsExpression_eq, hk])
  have hmore := takes_moreEntries hk ht
    (ih' (by simp) false n bound stop vs (by omega) (by omega) hs hc)
  rw [List.append_assoc]
  refine takes_bind hentry fun a ha => takes_bind hmore fun found hfound => ?_
  exact takes_pure (by rw [unlocatedEntries, ha, hfound, ← unlocatedEntries])

theorem taken_noParts : Phrase.Taken (.parts []) [] := by
  intro n bound stop us _ hb hs
  obtain ⟨bound, rfl⟩ := Nat.exists_eq_succ_of_ne_zero (Nat.ne_zero_of_lt hb)
  refine takes_then takes_current ?_
  rw [hs]
  exact takes_pure rfl

theorem taken_text {ps : List Part} (hk : t.kind = .fragment) (hv : t.value ≠ "")
    (ih : Phrase.Taken (.parts ps) ts) : Phrase.Taken (.parts (.text t.value :: ps)) (t :: ts) := by
  intro n bound stop us hn hb hs
  simp only [List.length_cons] at hn hb
  obtain ⟨bound, rfl⟩ := Nat.exists_eq_succ_of_ne_zero (Nat.ne_zero_of_lt hb)
  refine takes_then takes_current ?_
  rw [hk]
  refine takes_after (takes_advance (by simp [hk])) fun _ => ?_
  refine takes_bind (ih n bound stop us (by omega) (by omega) hs) fun found hfound => ?_
  rw [if_neg (by simpa using hv)]
  exact takes_pure (by simp [hfound])

theorem taken_interpolation {ps : List Part} {us : List Token}
    (ho : opening.kind = .interpolationStart) (ih : Phrase.Taken (.expr e) ts)
    (hc : closing.kind = .interpolationEnd) (ih' : Phrase.Taken (.parts ps) us) :
    Phrase.Taken (.parts (.expr e :: ps)) (opening :: (ts ++ closing :: us)) := by
  intro n bound stop vs hn hb hs
  simp only [List.length_cons, List.length_append] at hn hb
  obtain ⟨bound, rfl⟩ := Nat.exists_eq_succ_of_ne_zero (Nat.ne_zero_of_lt hb)
  have hvalue := ih n closing (us ++ stop :: vs) (by omega)
    (.inl (by simp [Token.endsExpression_eq, hc]))
  simp only [List.cons_append, List.append_assoc]
  refine takes_then takes_current ?_
  rw [ho]
  refine takes_after (takes_advance (by simp [ho])) fun _ => takes_bind hvalue fun a ha => ?_
  refine takes_after (takes_expect _ hc (by simp)) fun _ => ?_
  refine takes_bind (ih' n bound stop vs (by omega) (by omega) hs) fun found hfound => ?_
  exact takes_pure (by simp [ha, hfound])

end Phrases

end Grammar

open Grammar in
/-- **Every rendered phrase is taken back.** -/
theorem Renders.taken {phrase : Phrase} {ts : List Token} (h : Renders phrase ts) :
    phrase.Taken ts := by
  induction h with
  | ident hk => exact taken_ident hk
  | literal hl => exact taken_literal hl
  | binary ho hop _ hwl hr hwr ihl ihr => exact taken_binary ho hop ihl hwl hr ihr hwr
  | not ho _ hw ih => exact taken_not ho ih hw
  | neg ho _ hw ih => exact taken_neg ho ih hw
  | array ho hc hi ih => exact taken_array ho hc hi ih
  | object ho hc hi ih => exact taken_object ho hc hi ih
  | template ho hc _ ih => exact taken_template ho hc ih
  | property h hw hd hn ih => exact taken_property h ih hw hd hn
  | index h hw ho _ hc ih ihk => exact taken_index h ih hw ho ihk hc
  | safeIndex h hw hd ho _ hc ih ihk => exact taken_safeIndex h ih hw hd ho ihk hc
  | call hw hc ho hi hp ih => exact taken_call hw hc ho hi ih hp
  | safeCall h hw hd ho hi hc ih iha => exact taken_safeCall h ih hw hd ho hi iha hc
  | pipe h hw hd hc ih => exact taken_pipe_bare h ih hw hd hc
  | pipeCall h hw hd hc ho hi hp ih iha => exact taken_pipe_call h ih hw hd hc ho hi iha hp
  | pipeChoice h hw hd hi _ hf _ ho _ ih ihc ihy ihn =>
    exact taken_pipe_choice h ih hw hd hi ihc hf ihy ho ihn
  | item h ih => exact taken_item h ih
  | spread hd _ ih => exact taken_spread hd ih
  | noElements => exact fun h => absurd rfl h
  | lastElement _ ih => exact taken_lastElement ih
  | moreElements _ hk hi ih ih' => exact taken_moreElements ih hk hi ih'
  | keyed hk hc _ ih => exact taken_keyed hk hc ih
  | merged hd _ ih => exact taken_merged hd ih
  | noEntries => exact fun h => absurd rfl h
  | lastEntry _ ih => exact taken_lastEntry ih
  | moreEntries _ hk hi ih ih' => exact taken_moreEntries ih hk hi ih'
  | noParts => exact taken_noParts
  | text hk hv _ ih => exact taken_text hk hv ih
  | interpolation ho _ hc _ ih ih' => exact taken_interpolation ho ih hc ih'

/-- A cursor that has moved over some tokens. -/
theorem Cursor.Faces.eq_of_leads {c c' : Cursor} {ts us : List Token} (h : c.Faces (ts ++ us))
    (h' : c'.Faces us) (hne : us ≠ []) (hl : c.Leads c') :
    c' = { c with position := c.position + ts.length } := by
  have hc := h.position_add (by simp [hne])
  have hc' := h'.position_add hne
  have hp : c'.position = c.position + ts.length := by
    rw [hl.tokens, ← hc, List.length_append] at hc'
    omega
  obtain ⟨platform, tokens, last, position⟩ := c'
  obtain ⟨rfl, rfl, rfl, -⟩ := hl
  cases hp
  rfl

/-- **The parser accepts its own notation unambiguously.** An expression that it can build, and that
has no function literal in it, can be rendered; and of every rendering, wherever the tokens stand,
the parser takes exactly these and yields the expression up to locations. -/
theorem expression_round_trip {n : Nat} {c c' : Cursor} {e : Expr}
    (hbuilt : (Grammar.ofBound n).expression c = .ok (e, c')) (hfree : e.FunctionFree) :
    (∃ ts, Renders (.expr e) ts) ∧
      ∀ ts, Renders (.expr e) ts → ∀ (d : Cursor) (stop : Token) (rest : List Token),
        d.Faces (ts ++ stop :: rest) → stop.endsExpression = true →
          ∀ m, ts.length + 2 ≤ m → ∃ e', (Grammar.ofBound m).expression d =
            .ok (e', { d with position := d.position + ts.length }) ∧
              e'.unlocated = e.unlocated := by
  refine ⟨Expr.exists_renders hbuilt hfree, fun ts hr d stop rest hd hs m hm => ?_⟩
  obtain ⟨e', d', hrun, hd', he⟩ := hr.taken m stop rest hm (.inl hs) d hd
  have hleads := (Grammar.steady_ofBound m).expression.leads hrun
  rw [hd.eq_of_leads hd' (by simp) hleads] at hrun
  exact ⟨e', hrun, he⟩

/-- The difference of a name and a member. -/
theorem expression_round_trip_difference :
    ∃ minus a opening b dot c closing stop : Token, ∃ e c',
      [minus, a, opening, b, dot, c, closing].map (·.value) = ["-", "a", "(", "b", ".", "c", ")"] ∧
      (Grammar.ofBound 9).expression
        (.ofTokens .ample [minus, a, opening, b, dot, c, closing, stop] "main") = .ok (e, c') ∧
      e.FunctionFree ∧ Renders (.expr e) [minus, a, opening, b, dot, c, closing] ∧
      ∃ e', (Grammar.ofBound 9).expression
          (.ofTokens .ample [minus, a, opening, b, dot, c, closing, stop] "main") =
        .ok (e', { Cursor.ofTokens .ample [minus, a, opening, b, dot, c, closing, stop] "main" with
          position := 7 }) ∧ e'.unlocated = e.unlocated := by
  let loc : Location := ⟨"", 0, 0, .nowhere⟩
  let word := Renderable.word
  have hname (name : String) : (Expr.ident loc name).FunctionFree :=
    .intro (by rintro _ _ ⟨⟩) (by simp [Expr.parts])
  have hmember : (Expr.property loc (.ident loc "b") "c" false).FunctionFree :=
    .intro (by rintro _ _ ⟨⟩) (by simpa [Expr.parts] using hname "b")
  have hfree : (Expr.binary loc .sub (.ident loc "a")
      (.property loc (.ident loc "b") "c" false)).FunctionFree :=
    .intro (by rintro _ _ ⟨⟩) (by simpa [Expr.parts] using ⟨hname "a", hmember⟩)
  have hproperty :
      Renders (.expr (.property loc (.ident loc "b") (word .identifier "c").value false))
      ([word .identifier "b"] ++ [word .operator ".", word .identifier "c"]) :=
    .property (.ident (t := word .identifier "b") rfl) .bare (by decide) rfl
  have hrenders : Renders (.expr (.binary loc .sub (.ident loc "a")
      (.property loc (.ident loc "b") "c" false)))
      (word .operator "-" :: ([word .identifier "a"] ++ (word .leftParen "(" ::
        ([word .identifier "b", word .operator ".", word .identifier "c"] ++
          [word .rightParen ")"])))) :=
    .binary (by decide) rfl (.ident (t := word .identifier "a") rfl) .bare hproperty
      (.wrapped rfl rfl)
  have hbuilt : (Grammar.ofBound 9).expression (.ofTokens .ample [word .operator "-",
      word .identifier "a", word .leftParen "(", word .identifier "b", word .operator ".",
      word .identifier "c", word .rightParen ")", word .eof ""] "main") =
      .ok (.binary loc .sub (.ident loc "a") (.property loc (.ident loc "b") "c" false),
        { Cursor.ofTokens .ample [word .operator "-", word .identifier "a", word .leftParen "(",
          word .identifier "b", word .operator ".", word .identifier "c", word .rightParen ")",
          word .eof ""] "main" with position := 7 }) := by cbv
  refine ⟨_, _, _, _, _, _, _, _, _, _, rfl, hbuilt, hfree, hrenders, ?_⟩
  refine (expression_round_trip hbuilt hfree).2 _ hrenders _ (word .eof "") [] ?_ rfl 9 (by decide)
  rfl

end ScriptLang
