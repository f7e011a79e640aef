import ScriptLang.Proofs.Advances

/-!
# Patterns and expressions use tokens up

The judgement `Parser.Advances` for the parsers of patterns, blocks, functions and expressions, over
a grammar that is as deep as it needs to be.

* `Grammar.Lasts` says of the two parsers of a grammar that they use a token up, and that a bound on
  the depth of two for each token that is left is enough, give or take one. The two differ because a
  statement may begin with an expression, at the same token and one level deeper.
* Once a token has been used up, a grammar of depth `2 * r` serves where less than `r` tokens are
  left. Most lemmas are about parsers that come after a token and ask for that much.
* A loop of the grammar is bounded by the depth, too. Every round uses a token up, so a bound above
  the number of tokens is not met (`h : r ≤ bound` in the lemmas).
-/

namespace ScriptLang.Grammar

open ScriptLang.Parser

variable {R : Reading} {P : Cursor → Prop} {r bound : Nat}

/-- **Lasts.** The two parsers of the grammar use a token up and meet no bound where few enough
tokens are left. The locations that they put into trees are those of tokens. -/
structure Lasts (R : Reading) (g : Grammar) : Prop where
  expression : ∀ {r P}, 2 * r ≤ g.bound + 1 →
    Advances R P r 1 g.expression (Expr.Located R.place)
  statement : ∀ {r P}, 2 * r ≤ g.bound →
    Advances R P r 1 g.statement (Stmt.Located R.place)

/-! ### Patterns -/

theorem advances_names (clause : Clause) (h : r ≤ bound) :
    Advances R P r 1 (names clause bound) fun _ => True := by
  induction bound generalizing r P with
  | zero =>
    obtain rfl := Nat.le_zero.mp h
    exact advances_exhausted
  | succ bound ih =>
    refine advances_after (advances_expectName clause) fun name _ => ?_
    refine advances_eat ?_ (advances_pure trivial) (Nat.zero_le 1) (by decide)
    exact advances_bind (ih (by omega)).zero fun _ _ => advances_pure trivial

theorem advances_namesUpTo (close : TokenKind) (clause : Clause) (h : r ≤ bound) :
    Advances R P r 0 (namesUpTo bound close clause) fun _ => True :=
  advances_look fun _ => advances_ite (fun _ => advances_pure trivial) fun _ =>
    (advances_names clause h).zero

theorem advances_destructure (h : r ≤ bound) :
    Advances R P r 1 (destructure bound) fun _ => True := by
  -- Names between brackets, or between braces.
  have hnames (close : TokenKind) (hk : close ≠ .eof) (clause clause' : Clause)
      (f : List String → Destructure) :
      Advances R (fun _ => True) (r - 1) 0 (do
        let found ← namesUpTo bound close clause
        let _ ← expect close clause'
        return f found) fun _ => True := by
    refine advances_bind (advances_namesUpTo close clause (by omega)) fun _ _ => ?_
    exact advances_past (advances_expect hk clause') fun _ _ => advances_pure trivial
  refine advances_current fun t ht => advances_ite (fun hk => ?_) fun _ =>
    advances_ite (fun hk => ?_) fun _ => advances_fail ht
  · exact advances_after (advances_take (by simp [hk])) fun _ _ => hnames _ (by decide) _ _ .array
  · exact advances_after (advances_take (by simp [hk])) fun _ _ => hnames _ (by decide) _ _ .object

/-- The current token is used up, whatever else is known of the cursor. -/
theorem advances_token {t : Token} (ht : t.kind ≠ .eof) :
    Advances R (fun c => P c ∧ c.current = t) r 1 advance R.tokens :=
  advances_advance fun _ hc => atEnd_of_current hc.2 ht

/-- A pattern of one token. -/
theorem advances_patternToken {t : Token} (ht : t.kind ≠ .eof) (p : Pattern) :
    Advances R (fun c => P c ∧ c.current = t) r 1 (do let _ ← advance; return p) fun _ => True :=
  advances_after (advances_token ht) fun _ _ => advances_pure trivial

/-- Inside of `depth` patterns, as many tokens have been used up: their brackets. -/
theorem advances_patterns {start : Nat} :
    (∀ {r close depth}, 2 * r ≤ bound + 1 → Advances R (Cursor.NotBefore (start + depth)) r 1
      (patternWith start close bound depth) fun _ => True) ∧
    ∀ {r depth}, 2 * r ≤ bound → Advances R (Cursor.NotBefore (start + depth)) r 1
      (patterns start bound depth) fun _ => True := by
  -- A pattern consumes its bracket before the patterns in it, which begin with a pattern.
  induction bound with
  | zero =>
    refine ⟨fun {r close depth} h => ?_, fun {r depth} h => ?_⟩
    · obtain rfl : r = 0 := by omega
      exact advances_exhausted
    · obtain rfl : r = 0 := by omega
      exact advances_exhausted
  | succ bound ih =>
    obtain ⟨hpattern, hpatterns⟩ := ih
    refine ⟨fun {r close depth} h => ?_, fun {r depth} h => ?_⟩
    · refine advances_bind_from (fun _ hc => hc) (advances_enter fun _ hc => hc) fun _ _ => ?_
      refine advances_current_and fun t ht => ?_
      split
      case h_1 hk =>
        refine advances_bind_from (fun _ hc => hc.1) (advances_token (by simp [hk])) fun _ _ => ?_
        have hclose (ps : List Pattern) : Advances R (fun _ => True) (r - 1) 0
            (do let _ ← expect .rightBracket close; return Pattern.array ps) fun _ => True :=
          advances_past (advances_expect (by decide) close) fun _ _ => advances_pure trivial
        refine advances_look fun _ => advances_ite (fun _ => ?_) fun _ => ?_
        · exact advances_with (hclose []).anywhere
        · have hinner := @hpatterns (r - 1) (depth + 1) (by omega)
          exact advances_bind (hinner.mono (Nat.le_refl _) (Nat.zero_le _) (fun _ hc => hc.1)
            fun _ h => h) fun ps _ => hclose ps
      case h_2 hk =>
        refine advances_after (advances_token (by simp [hk])) fun _ _ => ?_
        split
        · exact advances_pure trivial
        · exact advances_fail ht
      case h_7 => exact advances_fail ht
      case h_8 => exact advances_fail ht
      all_goals exact advances_patternToken (by simp [*]) _
    · refine advances_bind_from (fun _ hc => hc) (hpattern (by omega)) fun _ _ => ?_
      refine advances_eatIf_from (fun _ hc => hc) (fun _ => atEnd_of_check (by decide)) ?_
        (advances_pure trivial) (Nat.zero_le 1)
      have hmore := @hpatterns (r - 1 - 1) depth (by omega)
      exact advances_bind (hmore.mono (Nat.le_refl _) (Nat.zero_le _)
        (fun _ hc => Nat.le_of_succ_le (Nat.le_of_succ_le hc)) fun _ h => h)
        fun _ _ => advances_pure trivial

theorem advances_pattern (h : 2 * r ≤ bound + 1) :
    Advances R P r 1 (pattern bound) fun _ => True :=
  advances_look fun _ => (advances_patterns.1 h).mono (Nat.le_refl _) (Nat.le_refl _)
    (fun _ hc => hc.2 ▸ Nat.le_refl _) fun _ h => h

variable {g : Grammar} (hg : g.Lasts R)
include hg

/-! ### Blocks and arguments -/

theorem advances_statements (h : r ≤ bound) (hr : 2 * r ≤ g.bound) :
    Advances R P r 0 (statements g bound) fun body => ∀ s ∈ body, s.Located R.place := by
  induction bound generalizing r P with
  | zero =>
    obtain rfl := Nat.le_zero.mp h
    exact advances_exhausted
  | succ bound ih =>
    refine advances_look fun done => advances_ite (fun _ => ?_) fun _ => ?_
    · exact advances_pure (List.forall_mem_nil _)
    · refine advances_past (hg.statement hr) fun s hs => ?_
      refine advances_bind (ih (by omega) (by omega)) fun body hbody => advances_pure ?_
      exact List.forall_mem_cons.mpr ⟨hs, hbody⟩

theorem advances_block (hr : 2 * r ≤ g.bound) :
    Advances R P r 0 (block g) fun body => ∀ s ∈ body, s.Located R.place :=
  advances_statements hg (by omega) hr

/-- An expression after a token. -/
theorem advances_expr (hr : 2 * r ≤ g.bound) :
    Advances R P r 1 g.expression (Expr.Located R.place) :=
  hg.expression (by omega)

theorem advances_element (hr : 2 * r ≤ g.bound) :
    Advances R P r 1 (element g) (Element.Located R.place) := by
  refine advances_eat ?_ ?_ (Nat.le_refl 1) (by decide)
  · exact advances_past (advances_expr hg (by omega)) fun e he => advances_pure he
  · exact advances_after (advances_expr hg hr) fun e he => advances_pure he

theorem advances_elements (h : r ≤ bound) (hr : 2 * r ≤ g.bound) :
    Advances R P r 1 (elements g bound) fun es => ∀ e ∈ es, e.Located R.place := by
  induction bound generalizing r P with
  | zero =>
    obtain rfl := Nat.le_zero.mp h
    exact advances_exhausted
  | succ bound ih =>
    refine advances_after (advances_element hg hr) fun e he => ?_
    refine advances_eat ?_ (advances_pure (by simpa using he)) (Nat.zero_le 1) (by decide)
    refine advances_bind (ih (by omega) (by omega)).zero fun es hes => advances_pure ?_
    exact List.forall_mem_cons.mpr ⟨he, hes⟩

theorem advances_arguments (hr : 2 * r ≤ g.bound) :
    Advances R P r 0 (arguments g) fun es => ∀ e ∈ es, e.Located R.place :=
  advances_look fun _ => advances_ite (fun _ => advances_pure (List.forall_mem_nil _)) fun _ =>
    (advances_elements hg (by omega) hr).zero

/-! ### Functions -/

omit hg in
theorem advances_restParam (style : ParamStyle) :
    Advances R P r 1 (restParam style) fun _ => True := by
  refine advances_after (advances_expect (by decide) _) fun name hname => ?_
  refine advances_look fun _ => advances_ite (fun _ => advances_fail hname) fun _ => ?_
  refine advances_ite (fun _ => ?_) fun _ => advances_pure trivial
  exact advances_bind (advances_eatIf_any _) fun _ _ => advances_pure trivial

theorem advances_paramDefault (defaulted : Bool) {name : Token} (hname : R.tokens name)
    (hr : 2 * r ≤ g.bound) :
    Advances R P r 0 (paramDefault g defaulted name) fun value =>
      ∀ e ∈ value, e.Located R.place := by
  refine advances_eat ?_ ?_ (Nat.zero_le 1) (by decide)
  · refine advances_past (advances_expr hg (by omega)) fun e he => advances_pure ?_
    simpa using he
  · exact advances_ite (fun _ => advances_fail hname) fun _ => advances_pure (by simp)

omit hg in
theorem advances_moreParams (style : ParamStyle) :
    Advances R P r 0 (moreParams style) fun _ => True := by
  cases style with
  | parenthesized => exact advances_eatIf_any _
  | arrow =>
    refine advances_eatOperator ?_ ?_ (Nat.zero_le 1) "->"
    · exact advances_pure trivial
    · exact advances_look fun _ => advances_ite (fun _ => advances_failHere) fun _ =>
        advances_pure trivial

theorem advances_paramsFrom (style : ParamStyle) (h : r ≤ bound) (hr : 2 * r ≤ g.bound)
    (defaulted : Bool) :
    Advances R P r 1 (paramsFrom g style bound defaulted) fun ps =>
      ∀ p ∈ ps.params, p.Located R.place := by
  induction bound generalizing r P defaulted with
  | zero =>
    obtain rfl := Nat.le_zero.mp h
    exact advances_exhausted
  | succ bound ih =>
    -- A rest parameter takes its dots and is the last one; a name may be followed by others.
    refine advances_eat ?_ ?_ (Nat.le_refl 1) (by decide)
    · exact advances_past (advances_restParam style) fun _ _ => advances_pure (by simp)
    · refine advances_after (advances_expectName _) fun name hname => ?_
      refine advances_bind (advances_paramDefault hg defaulted hname (by omega)) fun v hv => ?_
      refine advances_bind (advances_moreParams style) fun _ _ =>
        advances_ite (fun _ => ?_) fun _ => ?_
      · refine advances_past (ih (by omega) (by omega) _) fun others ho => advances_pure ?_
        exact List.forall_mem_cons.mpr ⟨hv, ho⟩
      · exact advances_pure (by simpa [Param.Located, Param.default?] using hv)

theorem advances_params (style : ParamStyle) (hr : 2 * r ≤ g.bound) :
    Advances R P r 0 (params g style) fun ps => ∀ p ∈ ps.params, p.Located R.place := by
  have hend (ps : Params) (hps : ∀ p ∈ ps.params, p.Located R.place) :
      Advances R (fun _ => True) r 0 (do
        if style = .parenthesized then
          if ← look fun c => ps.rest.isSome && !c.check .rightParen then failHere .afterRest
          else
            let _ ← expect .rightParen
              ⟨"SYN026", "Expected a closing parenthesis for function parameters."⟩
            return ps
        else return ps) fun ps => ∀ p ∈ ps.params, p.Located R.place := by
    refine advances_ite (fun _ => ?_) fun _ => advances_pure hps
    refine advances_look fun _ => advances_ite (fun _ => advances_failHere) fun _ => ?_
    exact advances_past (advances_expect (by decide) _) fun _ _ => advances_pure hps
  -- The parameters are read in the same way after either way to see that there are none.
  have hopen (closed : Bool) : Advances R (fun _ => True) r 0 (do
      let found ← if closed then pure ⟨[], none⟩ else paramsFrom g style g.bound false
      if style = .parenthesized then
        if ← look fun c => found.rest.isSome && !c.check .rightParen then failHere .afterRest
        else
          let _ ← expect .rightParen
            ⟨"SYN026", "Expected a closing parenthesis for function parameters."⟩
          return found
      else return found) fun ps => ∀ p ∈ ps.params, p.Located R.place := by
    refine advances_ite (fun _ => ?_) fun _ => ?_
    · exact advances_with (hend _ (List.forall_mem_nil _))
    · exact advances_bind (advances_paramsFrom hg style (by omega) hr false).zero hend
  cases style with
  | parenthesized => exact advances_look fun closed => (hopen closed).anywhere
  | arrow => exact advances_bind (advances_eatIf_any _) fun closed _ => hopen closed

theorem advances_functionBody (hr : 2 * r ≤ g.bound) :
    Advances R P r 1 (functionBody g) fun body => ∀ s ∈ body, s.Located R.place :=
  advances_bind (advances_block hg hr) fun _ hbody =>
    advances_after (advances_expectText (by decide) _ _) fun _ _ => advances_pure hbody

theorem advances_anonymous {start : Token} (hstart : R.tokens start) (hr : 2 * r ≤ g.bound) :
    Advances R P r 0 (anonymous g start) (Expr.Located R.place) := by
  -- Parameters and a body come after either way to begin.
  have hrest (style : ParamStyle) : Advances R (fun _ => True) r 0 (do
      let found ← params g style
      let body ← functionBody g
      let loc ← locate start
      return .function loc (.mk none found.params found.rest body loc))
      (Expr.Located R.place) := by
    refine advances_bind (advances_params hg style hr) fun ps hps => ?_
    refine advances_bind (advances_functionBody hg hr).zero fun body hbody => ?_
    refine advances_bind (advances_locate hstart) fun loc hloc => advances_pure ?_
    refine .intro hloc (by simp [Expr.parts]) fun fn hfn => ?_
    obtain rfl := List.mem_singleton.mp hfn
    exact .of_params hps hbody
  refine advances_ite (fun _ => ?_) fun _ => ?_
  · exact advances_with (hrest .arrow).anywhere
  · refine advances_bind (advances_expect (by decide) _).zero fun _ _ => ?_
    exact advances_with (hrest .parenthesized)

omit hg in
theorem advances_callee {first : Token} (hfirst : R.tokens first) (member : Clause) :
    Advances R P r 0 (callee first member) (Expr.Located R.place) := by
  refine advances_bind (advances_locate hfirst) fun loc hloc => ?_
  refine advances_eatOperator ?_ (advances_pure (.leaf hloc rfl rfl)) (Nat.zero_le 1) "."
  exact advances_past (advances_expect (by decide) _) fun _ _ => advances_pure (.leaf hloc rfl rfl)

/-- A callee with its arguments. -/
def CalleeLocated (R : Reading) (call : Expr × List Element) : Prop :=
  call.1.Located R.place ∧ ∀ e ∈ call.2, e.Located R.place

/-- Arguments and their closing parenthesis. -/
theorem advances_argumentsTo {β : Type} {f : List Element → β} {q : β → Prop} (clause : Clause)
    (hr : 2 * r ≤ g.bound) (hf : ∀ es, (∀ e ∈ es, e.Located R.place) → q (f es)) :
    Advances R P r 0 (do
      let args ← arguments g
      let _ ← expect .rightParen clause
      return f args) q :=
  advances_bind (advances_arguments hg hr) fun es hes =>
    advances_past (advances_expect (by decide) _) fun _ _ => advances_pure (hf es hes)

theorem advances_callParts (hr : 2 * r ≤ g.bound) :
    Advances R P r 1 (callParts g) (CalleeLocated R) := by
  refine advances_after (advances_expect (by decide) _) fun first hfirst => ?_
  refine advances_bind (advances_callee hfirst _) fun target htarget => ?_
  refine advances_past (advances_expect (by decide) _) fun _ _ => ?_
  exact advances_argumentsTo hg _ (by omega) fun es hes => ⟨htarget, hes⟩

/-! ### Containers and templates -/

theorem advances_moreItems (h : r ≤ bound) (hr : 2 * r ≤ g.bound) :
    Advances R P r 0 (moreItems g bound) fun es => ∀ e ∈ es, e.Located R.place := by
  induction bound generalizing r P with
  | zero =>
    obtain rfl := Nat.le_zero.mp h
    exact advances_exhausted
  | succ bound ih =>
    refine advances_eat ?_ (advances_pure (List.forall_mem_nil _)) (Nat.zero_le 1) (by decide)
    refine advances_look fun _ =>
      advances_ite (fun _ => advances_pure (List.forall_mem_nil _)) fun _ => ?_
    refine advances_past (advances_element hg (by omega)) fun e he => ?_
    refine advances_bind (ih (by omega) (by omega)) fun es hes => advances_pure ?_
    exact List.forall_mem_cons.mpr ⟨he, hes⟩

theorem advances_arrayLiteral {start : Token} (hstart : R.tokens start) (hr : 2 * r ≤ g.bound) :
    Advances R P r 0 (arrayLiteral g start) (Expr.Located R.place) := by
  have hclose (es : List Element) (hes : ∀ e ∈ es, e.Located R.place) :
      Advances R (fun _ => True) r 0 (do
        let _ ← expect .rightBracket
          ⟨"SYN012", "Expected a closing square bracket to end an array literal."⟩
        return .array (← locate start) es) (Expr.Located R.place) := by
    refine advances_past (advances_expect (by decide) _) fun _ _ => ?_
    exact advances_bind (advances_locate hstart) fun loc hloc => advances_pure (.array hloc hes)
  refine advances_look fun _ => advances_ite (fun _ => ?_) fun _ => ?_
  · exact advances_with (hclose [] (List.forall_mem_nil _)).anywhere
  · refine advances_bind (advances_element hg hr).zero fun e he => ?_
    refine advances_bind (advances_moreItems hg (by omega) hr) fun es hes => advances_with ?_
    exact hclose (e :: es) (List.forall_mem_cons.mpr ⟨he, hes⟩)

theorem advances_entry (first : Bool) (hr : 2 * r ≤ g.bound) :
    Advances R P r 1 (entry g first) (Entry.Located R.place) := by
  refine advances_eat ?_ ?_ (Nat.le_refl 1) (by decide)
  · exact advances_past (advances_expr hg (by omega)) fun e he => advances_pure he
  · refine advances_after (advances_expect (by decide) _) fun key _ => ?_
    refine advances_past (advances_expect (by decide) _) fun _ _ => ?_
    exact advances_past (advances_expr hg (by omega)) fun e he => advances_pure he

theorem advances_moreEntries (h : r ≤ bound) (hr : 2 * r ≤ g.bound) :
    Advances R P r 0 (moreEntries g bound) fun es => ∀ e ∈ es, e.Located R.place := by
  induction bound generalizing r P with
  | zero =>
    obtain rfl := Nat.le_zero.mp h
    exact advances_exhausted
  | succ bound ih =>
    refine advances_eat ?_ (advances_pure (List.forall_mem_nil _)) (Nat.zero_le 1) (by decide)
    refine advances_look fun _ =>
      advances_ite (fun _ => advances_pure (List.forall_mem_nil _)) fun _ => ?_
    refine advances_past (advances_entry hg false (by omega)) fun e he => ?_
    refine advances_bind (ih (by omega) (by omega)) fun es hes => advances_pure ?_
    exact List.forall_mem_cons.mpr ⟨he, hes⟩

theorem advances_objectLiteral {start : Token} (hstart : R.tokens start) (hr : 2 * r ≤ g.bound) :
    Advances R P r 0 (objectLiteral g start) (Expr.Located R.place) := by
  have hclose (es : List Entry) (hes : ∀ e ∈ es, e.Located R.place) :
      Advances R (fun _ => True) r 0 (do
        let _ ← expect .rightBrace
          ⟨"SYN018", "Expected a closing curly brace to end an object literal."⟩
        return .object (← locate start) es) (Expr.Located R.place) := by
    refine advances_past (advances_expect (by decide) _) fun _ _ => ?_
    exact advances_bind (advances_locate hstart) fun loc hloc => advances_pure (.object hloc hes)
  refine advances_look fun _ => advances_ite (fun _ => ?_) fun _ => ?_
  · exact advances_with (hclose [] (List.forall_mem_nil _)).anywhere
  · refine advances_bind (advances_entry hg true hr).zero fun e he => ?_
    refine advances_bind (advances_moreEntries hg (by omega) hr) fun es hes => advances_with ?_
    exact hclose (e :: es) (List.forall_mem_cons.mpr ⟨he, hes⟩)

theorem advances_parts (h : r ≤ bound) (hr : 2 * r ≤ g.bound) :
    Advances R P r 0 (parts g bound) fun ps => ∀ p ∈ ps, p.Located R.place := by
  induction bound generalizing r P with
  | zero =>
    obtain rfl := Nat.le_zero.mp h
    exact advances_exhausted
  | succ bound ih =>
    -- Text and an interpolation take their token before the parts behind them are read.
    refine advances_current fun t ht => ?_
    split
    case h_1 => exact advances_pure (List.forall_mem_nil _)
    case h_2 => exact advances_pure (List.forall_mem_nil _)
    case h_3 hk =>
      refine advances_past (advances_take (by simp [hk])) fun _ _ => ?_
      refine advances_bind (ih (by omega) (by omega)) fun ps hps => advances_pure ?_
      split
      · exact hps
      · exact List.forall_mem_cons.mpr ⟨by simp [Part.Located, Part.value?], hps⟩
    case h_4 hk =>
      refine advances_past (advances_take (by simp [hk])) fun _ _ => ?_
      refine advances_bind (advances_expr hg (by omega)).zero fun e he => ?_
      refine advances_bind (advances_expect (by decide) _).zero fun _ _ => ?_
      refine advances_bind (ih (by omega) (by omega)) fun ps hps => advances_pure ?_
      exact List.forall_mem_cons.mpr ⟨by simpa [Part.Located, Part.value?] using he, hps⟩
    case h_5 => exact advances_fail ht

theorem advances_templateLiteral {start : Token} (hstart : R.tokens start) (hr : 2 * r ≤ g.bound) :
    Advances R P r 0 (templateLiteral g start) (Expr.Located R.place) := by
  refine advances_bind (advances_parts hg (by omega) hr) fun ps hps => ?_
  refine advances_past (advances_expect (by decide) _) fun _ _ => ?_
  exact advances_bind (advances_locate hstart) fun loc hloc => advances_pure (.template hloc hps)

/-! ### Primaries and their members -/

omit hg in
/-- A token that is an expression by itself. -/
theorem advances_literal {t : Token} (ht : R.tokens t) (hk : t.kind ≠ .eof)
    {f : Location → Expr} (hf : ∀ loc, R.place loc → (f loc).Located R.place) :
    Advances R (fun c => c.current = t) r 1 (do
      let _ ← advance
      return f (← locate t)) (Expr.Located R.place) :=
  advances_after (advances_take hk) fun _ _ =>
    advances_bind (advances_locate ht) fun loc hloc => advances_pure (hf loc hloc)

theorem advances_wordAtom {t : Token} (ht : R.tokens t) (hk : t.kind ≠ .eof)
    (hr : 2 * r ≤ g.bound + 2) :
    Advances R (fun c => c.current = t) r 1 (wordAtom g t) (Expr.Located R.place) := by
  refine advances_ite (fun _ => ?_) fun _ => advances_ite (fun _ => ?_) fun _ => advances_fail ht
  · exact advances_after (advances_take hk) fun _ _ => advances_anonymous hg ht (by omega)
  · refine advances_after (advances_take hk) fun _ _ => ?_
    refine advances_bind (advances_callParts hg (by omega)).zero fun call hcall => ?_
    refine advances_bind (advances_locate ht) fun loc hloc => advances_pure ?_
    exact .call hloc hcall.1 hcall.2

theorem advances_atom (hr : 2 * r ≤ g.bound + 2) :
    Advances R P r 1 (atom g) (Expr.Located R.place) := by
  refine advances_current fun t ht => ?_
  -- Whatever begins an atom is taken; what it is decides how the atom goes on.
  split
  case h_1 hk => exact advances_literal ht (by simp [hk]) fun loc hloc => .leaf hloc rfl rfl
  case h_2 hk =>
    refine advances_after (advances_take (by simp [hk])) fun _ _ => ?_
    split
    · exact advances_bind (advances_locate ht) fun loc hloc => advances_pure (.leaf hloc rfl rfl)
    · exact advances_fail ht
  case h_3 hk => exact advances_literal ht (by simp [hk]) fun loc hloc => .leaf hloc rfl rfl
  case h_4 hk => exact advances_literal ht (by simp [hk]) fun loc hloc => .leaf hloc rfl rfl
  case h_5 hk => exact advances_literal ht (by simp [hk]) fun loc hloc => .leaf hloc rfl rfl
  case h_6 hk =>
    exact advances_after (advances_take (by simp [hk])) fun _ _ =>
      advances_templateLiteral hg ht (by omega)
  case h_7 hk =>
    exact advances_after (advances_take (by simp [hk])) fun _ _ =>
      advances_arrayLiteral hg ht (by omega)
  case h_8 hk =>
    exact advances_after (advances_take (by simp [hk])) fun _ _ =>
      advances_objectLiteral hg ht (by omega)
  case h_9 hk =>
    refine advances_after (advances_take (by simp [hk])) fun _ _ => ?_
    refine advances_past (advances_expr hg (by omega)) fun inner hinner => ?_
    exact advances_past (advances_expect (by decide) _) fun _ _ => advances_pure hinner
  case h_10 hk => exact advances_wordAtom hg ht (by simp [hk]) hr
  case h_11 => exact advances_fail ht
  case h_12 => exact advances_fail ht

theorem advances_bracketMember {start : Token} (hstart : R.tokens start) {base : Expr}
    (hbase : base.Located R.place) (clause : Clause) (hr : 2 * r ≤ g.bound) :
    Advances R P r 1 (bracketMember g start base clause) (Expr.Located R.place) := by
  refine advances_after (advances_expr hg hr) fun key hkey => ?_
  refine advances_past (advances_expect (by decide) _) fun _ _ => ?_
  refine advances_bind (advances_locate hstart) fun loc hloc => advances_pure ?_
  exact .of_parts hloc rfl (by simp [Expr.parts, hbase, hkey])

theorem advances_dotMember {dot : Token} (hdot : R.tokens dot) {base : Expr}
    (hbase : base.Located R.place) (hr : 2 * r ≤ g.bound) :
    Advances R P r 0 (dotMember g dot base) (Expr.Located R.place) := by
  -- A bracket or parenthesis that is eaten was seen, so it is not the end of the input.
  have hat {safe : Bool} {kind : TokenKind} (hk : kind ≠ .eof) (c : Cursor)
      (hc : (safe && c.check kind) = true) : c.atEnd = false := by
    have hkind : c.current.kind = kind := by simp_all [Cursor.check]
    exact atEnd_of_current rfl (hkind ▸ hk)
  refine advances_eatIf (hat (by decide)) ?_ ?_ (Nat.zero_le 1)
  · refine advances_past (advances_expr hg (by omega)) fun key hkey => ?_
    refine advances_past (advances_expect (by decide) _) fun _ _ => ?_
    refine advances_bind (advances_locate hdot) fun loc hloc => advances_pure ?_
    exact .of_parts hloc rfl (by simp [Expr.parts, hbase, hkey])
  refine advances_eatIf (hat (by decide)) ?_ ?_ (Nat.zero_le 1)
  · refine advances_bind (advances_arguments hg (by omega)) fun es hes => ?_
    refine advances_past (advances_expect (by decide) _) fun _ _ => ?_
    refine advances_bind (advances_locate hdot) fun loc hloc => advances_pure ?_
    exact .call hloc hbase hes
  · refine advances_past (advances_expect (by decide) _) fun name hname => ?_
    refine advances_bind (advances_locate hname) fun loc hloc => advances_pure ?_
    exact .of_parts hloc rfl (by simp [Expr.parts, hbase])

omit hg in
/-- A token of an operator is not the `eof` token. -/
theorem kind_of_isOperator {t : Token} {symbol : String} (h : t.isOperator symbol = true) :
    t.kind ≠ .eof := by
  have hkind : t.kind = .operator := by simp_all [Token.isOperator, Token.is]
  simp [hkind]

theorem advances_members (h : r ≤ bound) (hr : 2 * r ≤ g.bound) {base : Expr}
    (hbase : base.Located R.place) :
    Advances R P r 0 (members g bound base) (Expr.Located R.place) := by
  induction bound generalizing r P base with
  | zero =>
    obtain rfl := Nat.le_zero.mp h
    exact advances_exhausted
  | succ bound ih =>
    refine advances_current fun t ht => advances_ite (fun hdot => ?_) fun _ => ?_
    · have hk : t.kind ≠ .eof := by
        obtain hdot | hdot : t.isOperator "." = true ∨ t.isOperator "?." = true := by
          simpa using hdot
        · exact kind_of_isOperator hdot
        · exact kind_of_isOperator hdot
      -- The token is taken here, which leaves fewer of them to the members behind it.
      refine advances_past (advances_take hk) fun _ _ => ?_
      refine advances_bind (advances_dotMember hg ht hbase (by omega)) fun next hnext => ?_
      exact ih (by omega) (by omega) hnext
    · refine advances_ite (fun hk => ?_) fun _ => advances_pure hbase
      refine advances_past (advances_take (by simp [hk])) fun _ _ => ?_
      refine advances_bind (advances_bracketMember hg ht hbase _ (by omega)).zero
        fun next hnext => ?_
      exact ih (by omega) (by omega) hnext

theorem advances_primary (hr : 2 * r ≤ g.bound + 2) :
    Advances R P r 1 (primary g) (Expr.Located R.place) :=
  advances_after (advances_atom hg hr) fun _ hbase =>
    advances_members hg (by omega) (by omega) hbase

/-! ### Operators and pipes -/

theorem advances_operation {t : Token} (ht : R.tokens t) (hr : 2 * r ≤ g.bound) :
    Advances R P r 0 (operation g t) (Expr.Located R.place) := by
  refine advances_ite (fun _ => ?_) fun _ => ?_
  · refine advances_past (advances_expr hg hr) fun e he => ?_
    refine advances_bind (advances_locate ht) fun loc hloc => advances_pure ?_
    exact .of_parts hloc rfl (by simp [Expr.parts, he])
  split
  · exact advances_fail ht
  refine advances_past (advances_expr hg hr) fun left hleft => ?_
  refine advances_look fun _ => advances_ite (fun _ => ?_) fun _ => ?_
  -- With one operand only, the operator has to be a minus.
  · refine advances_ite (fun _ => ?_) fun _ => advances_fail ht
    refine advances_bind (advances_locate ht) fun loc hloc => advances_pure ?_
    exact .of_parts hloc rfl (by simp [Expr.parts, hleft])
  · refine advances_past (advances_expr hg (by omega)) fun right hright => ?_
    refine advances_bind (advances_locate ht) fun loc hloc => advances_pure ?_
    exact .of_parts hloc rfl (by simp [Expr.parts, hleft, hright])

omit hg in
theorem kind_of_isOperation {t : Token} (h : isOperation t = true) : t.kind ≠ .eof := by
  intro hk
  simp [isOperation, hk] at h

theorem advances_operand (hr : 2 * r ≤ g.bound + 2) :
    Advances R P r 1 (operand g) (Expr.Located R.place) := by
  refine advances_current fun t ht => advances_ite (fun hop => ?_) fun _ => ?_
  · exact advances_after (advances_take (kind_of_isOperation hop)) fun _ _ =>
      advances_operation hg ht (by omega)
  · exact advances_primary hg hr

theorem advances_choiceCallee {start : Token} (hstart : R.tokens start) (hr : 2 * r ≤ g.bound) :
    Advances R P r 0 (choiceCallee g start) (Expr.Located R.place) := by
  refine advances_bind (advances_expr hg hr).zero fun cond hcond => ?_
  refine advances_bind (advances_expectWord _ _).zero fun _ _ => ?_
  refine advances_bind (advances_expr hg hr).zero fun yes hyes => ?_
  refine advances_bind (advances_expectWord _ _).zero fun _ _ => ?_
  refine advances_bind (advances_expr hg hr).zero fun no hno => ?_
  refine advances_bind (advances_locate hstart) fun loc hloc => advances_pure ?_
  exact .of_parts hloc rfl (by simp [Expr.parts, hcond, hyes, hno])

omit hg in
/-- A token of a reserved word is not the `eof` token. -/
theorem kind_of_isKeyword {t : Token} {word : String} (h : t.isKeyword word = true) :
    t.kind ≠ .eof := by
  have hkind : t.kind = .keyword := by simp_all [Token.isKeyword, Token.is]
  simp [hkind]

theorem advances_pipeCallee (hr : 2 * r ≤ g.bound) :
    Advances R P r 1 (pipeCallee g) (CalleeLocated R) := by
  refine advances_current fun t ht => advances_ite (fun hif => ?_) fun _ => ?_
  · refine advances_after (advances_take (kind_of_isKeyword hif)) fun _ _ => ?_
    refine advances_bind (advances_choiceCallee hg ht (by omega)) fun e he => advances_pure ?_
    exact ⟨he, List.forall_mem_nil _⟩
  · refine advances_after (advances_expect (by decide) _) fun first hfirst => ?_
    refine advances_bind (advances_callee hfirst _) fun target htarget => ?_
    refine advances_eat ?_ ?_ (Nat.zero_le 1) (by decide)
    · exact advances_argumentsTo hg _ (by omega) fun es hes => ⟨htarget, hes⟩
    · exact advances_pure ⟨htarget, List.forall_mem_nil _⟩

theorem advances_pipes (h : r ≤ bound) (hr : 2 * r ≤ g.bound) {value : Expr}
    (hvalue : value.Located R.place) :
    Advances R P r 0 (pipes g bound value) (Expr.Located R.place) := by
  induction bound generalizing r P value with
  | zero =>
    obtain rfl := Nat.le_zero.mp h
    exact advances_exhausted
  | succ bound ih =>
    refine advances_current fun t ht => advances_ite (fun hpipe => ?_) fun _ =>
      advances_pure hvalue
    refine advances_past (advances_take (kind_of_isOperator hpipe)) fun _ _ => ?_
    refine advances_bind (advances_pipeCallee hg (by omega)).zero fun call hcall => ?_
    refine advances_bind (advances_locate ht) fun loc hloc => ?_
    exact ih (by omega) (by omega) (.pipe hloc hvalue hcall.1 hcall.2)

/-- An expression uses a token up. It may be one token longer than what the grammar inside it can
read. -/
theorem advances_expressionWith (hr : 2 * r ≤ g.bound + 2) :
    Advances R P r 1 (expressionWith g) (Expr.Located R.place) :=
  advances_after (advances_operand hg hr) fun _ hvalue =>
    advances_pipes hg (by omega) (by omega) hvalue

end ScriptLang.Grammar
