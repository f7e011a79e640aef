import ScriptLang.Proofs.AdvancesExpression

/-!
# Statements use tokens up

The judgement `Parser.Advances` for the parsers of statements, and with it `Grammar.Lasts` for the
grammar that programs are read with, at every depth (`Grammar.lasts_ofBound`).

Like the parsers of expressions, those that come after a token ask for a depth of two for each token
that is left (`hr` in the lemmas). Only `statementWith` and what it begins with ask for one less.
-/

namespace ScriptLang.Grammar

open ScriptLang.Parser

variable {R : Reading} {P : Cursor → Prop} {r bound : Nat}

/-! ### Ends and labels -/

theorem advances_closing (clause : Clause) : Advances R P r 1 (closing clause) fun _ => True :=
  advances_after (advances_expectWord _ _) fun _ _ => advances_pure trivial

theorem advances_jumpLabel : Advances R P r 0 jumpLabel fun _ => True := by
  refine advances_look fun _ => advances_ite (fun _ => ?_) fun _ => advances_pure trivial
  exact advances_bind advances_advance_zero fun _ _ => advances_pure trivial

/-- A statement with the location of `t` that is made once all its tokens have been read. -/
theorem advances_made {t : Token} (ht : R.tokens t) {f : Location → Stmt}
    (hf : ∀ loc, R.place loc → (f loc).Located R.place) :
    Advances R P r 0 (do return f (← locate t)) (Stmt.Located R.place) :=
  advances_bind (advances_locate ht) fun loc hloc => advances_pure (hf loc hloc)

/-- An end and the statement that it ends. -/
theorem advances_closed {t : Token} (ht : R.tokens t) (clause : Clause) {f : Location → Stmt}
    (hf : ∀ loc, R.place loc → (f loc).Located R.place) :
    Advances R P r 0 (do closing clause; return f (← locate t)) (Stmt.Located R.place) :=
  advances_past (advances_closing clause) fun _ _ => advances_made ht hf

variable {g : Grammar} (hg : g.Lasts R)
include hg

/-! ### Declarations and writes -/

theorem advances_writeTarget (h : r ≤ bound) (hr : 2 * r ≤ g.bound) {base : Expr}
    (hbase : base.Located R.place) :
    Advances R P r 0 (writeTarget g bound base) (Expr.Located R.place) := by
  induction bound generalizing r P base with
  | zero =>
    obtain rfl := Nat.le_zero.mp h
    exact advances_exhausted
  | succ bound ih =>
    refine advances_current fun t ht => advances_ite (fun hdot => ?_) fun _ => ?_
    · refine advances_past (advances_take (kind_of_isOperator hdot)) fun _ _ => ?_
      refine advances_bind (advances_expect (by decide) _).zero fun name hname => ?_
      refine advances_bind (advances_locate hname) fun loc hloc => ?_
      exact ih (by omega) (by omega) (.of_parts hloc rfl (by simp [Expr.parts, hbase]))
    · refine advances_look fun b => advances_ite (fun hb => ?_) fun _ => advances_pure hbase
      -- The bracket has been seen, right behind what it is applied to.
      have hat (c : Cursor) (hc : c.current = t ∧ (c.check .leftBracket && c.adjacent) = b) :
          c.atEnd = false := by
        have hkind : c.current.kind = .leftBracket := by
          have hcheck := hc.2.trans hb
          simp_all [Cursor.check]
        exact atEnd_of_current rfl (by simp [hkind])
      refine advances_past (advances_advance hat) fun _ _ => ?_
      refine advances_bind (advances_bracketMember hg ht hbase _ (by omega)).zero
        fun next hnext => ?_
      exact ih (by omega) (by omega) hnext

theorem advances_memberWrite {loc : Location} (hloc : R.place loc) {name : Token}
    (hname : R.tokens name) (hr : 2 * r ≤ g.bound) :
    Advances R P r 0 (memberWrite g loc name) (Stmt.Located R.place) := by
  refine advances_bind (advances_locate hname) fun loc' hloc' => ?_
  have hbase : (Expr.ident loc' name.value).Located R.place := .leaf hloc' rfl rfl
  refine advances_bind (advances_writeTarget hg (by omega) hr hbase) fun target htarget => ?_
  refine advances_past (advances_expr hg hr) fun value hvalue => ?_
  -- The target is taken apart again; its parts are those that have been read.
  split
  · have hobject := htarget.part (List.mem_singleton_self _)
    exact advances_pure (.of_parts rfl hloc rfl (by simp [Stmt.exprs, hobject, hvalue])
      (List.forall_mem_nil _))
  · have hobject := htarget.part List.mem_cons_self
    have hkey := htarget.part (List.mem_cons_of_mem _ List.mem_cons_self)
    exact advances_pure (.of_parts rfl hloc rfl (by simp [Stmt.exprs, hobject, hkey, hvalue])
      (List.forall_mem_nil _))
  · exact advances_fail hname

omit hg in
/-- The token that gives an exported declaration its location. -/
theorem tokens_getD {exporting : Option Token} (he : ∀ t ∈ exporting, R.tokens t) {t : Token}
    (ht : R.tokens t) : R.tokens (exporting.getD t) := by
  cases exporting with
  | none => exact ht
  | some e => exact he e rfl

theorem advances_declaration {exporting : Option Token} (he : ∀ t ∈ exporting, R.tokens t)
    (hr : 2 * r ≤ g.bound + 1) :
    Advances R P r 1 (declaration g exporting) (Stmt.Located R.place) := by
  refine advances_after (advances_expectWords _ _) fun t ht => ?_
  refine advances_bind (advances_locate (tokens_getD he ht)) fun loc hloc => ?_
  have hdeclare {kind : DeclKind} {target : Target} {value : Expr} {exported : Bool}
      (hvalue : value.Located R.place) :
      (Stmt.declare loc kind target value exported).Located R.place :=
    .of_expr rfl hloc rfl rfl hvalue (List.forall_mem_nil _)
  refine advances_look fun _ => advances_ite (fun _ => ?_) fun _ => ?_
  · refine advances_bind (advances_destructure (by omega)).zero fun _ _ => ?_
    exact advances_past (advances_expr hg (by omega)) fun _ hv => advances_pure (hdeclare hv)
  · -- Behind a name, the write into a member is allowed to the word `set` only.
    refine advances_past (advances_expect (by decide) _) fun name hname => ?_
    refine advances_look fun _ => advances_ite (fun _ => advances_ite (fun _ => ?_) fun _ => ?_)
      fun _ => ?_
    · exact (advances_memberWrite hg hloc hname (by omega)).anywhere
    · exact advances_fail ht
    · exact advances_past (advances_expr hg (by omega)) fun _ hv => advances_pure (hdeclare hv)

theorem advances_destructuring {t : Token} (ht : R.tokens t) (hr : 2 * r ≤ g.bound) :
    Advances R P r 0 (destructuring g t) (Stmt.Located R.place) := by
  refine advances_bind (advances_destructure (by omega)).zero fun _ _ => ?_
  refine advances_bind (advances_expectWord _ _).zero fun _ _ => ?_
  refine advances_past (advances_expr hg hr) fun value hvalue => advances_made ht fun loc hloc => ?_
  exact .of_expr rfl hloc rfl rfl hvalue (List.forall_mem_nil _)

theorem advances_functionDeclaration {exporting : Option Token}
    (he : ∀ t ∈ exporting, R.tokens t) (hr : 2 * r ≤ g.bound + 1) :
    Advances R P r 1 (functionDeclaration g exporting) (Stmt.Located R.place) := by
  refine advances_after (advances_expectWord _ _) fun t ht => ?_
  refine advances_bind (advances_expect (by decide) _).zero fun name _ => ?_
  refine advances_bind (advances_expect (by decide) _).zero fun _ _ => ?_
  refine advances_bind (advances_params hg _ (by omega)) fun ps hps => ?_
  refine advances_bind (advances_functionBody hg (by omega)).zero fun body hbody => ?_
  refine advances_bind (advances_locate (tokens_getD he ht)) fun loc hloc => ?_
  refine advances_made ht fun loc' _ => .intro ?_ (List.forall_mem_nil _) ?_ (List.forall_mem_nil _)
  · simpa [Stmt.places, Stmt.location] using hloc
  · simpa [Stmt.functions] using FunctionDef.Located.of_params hps hbody

/-! ### Control flow -/

/-- After `depth` conditionals in a row, more tokens than that have been used up: their tests. -/
theorem advances_conditionalFrom {start depth : Nat} {t : Token} (ht : R.tokens t) (h : r ≤ bound)
    (hr : 2 * r ≤ g.bound) :
    Advances R (Cursor.NotBefore (start + depth)) r 0 (conditionalFrom g start bound depth t)
      (Stmt.Located R.place) := by
  induction bound generalizing r depth t with
  | zero =>
    obtain rfl := Nat.le_zero.mp h
    exact advances_exhausted
  | succ bound ih =>
    refine advances_bind_from (fun _ hc => hc) (advances_enter fun _ hc => hc) fun _ _ => ?_
    refine advances_bind_from (fun _ hc => hc) (advances_expr hg hr) fun test htest => ?_
    refine advances_bind_from (fun _ hc => hc) (advances_block hg (by omega)) fun yes hyes => ?_
    refine advances_bind_from (fun _ hc => hc) (advances_locate ht) fun loc hloc => ?_
    -- Every way to end makes the same statement, over another part for `else`.
    have hcond {no : Else} (hno : ∀ s ∈ no.parts, s.Located R.place) :
        (Stmt.cond loc test yes no).Located R.place := by
      refine .of_expr rfl hloc rfl rfl htest fun s hs => ?_
      obtain hs | hs := List.mem_append.mp hs
      · exact hyes s hs
      · exact hno s hs
    refine advances_eatIf_from (fun _ hc => hc) (fun _ => atEnd_of_checkKeyword) ?_ ?_
      (Nat.zero_le 1)
    · refine advances_look fun again => advances_ite (fun hagain => ?_) fun _ => ?_
      · refine advances_bind_from (fun _ hc => hc.1) (advances_advance_zero) fun word hword => ?_
        have hnext := @ih (r - 1 - 1) (depth + 1) word hword (by omega) (by omega)
        refine advances_bind (hnext.mono ?_ (Nat.le_refl _) (fun c hc => ?_) fun _ h => h)
          fun next hnext => advances_pure (hcond ?_)
        · omega
        · exact Nat.le_trans (by omega) hc
        · simpa [Else.parts] using hnext
      · refine advances_bind (advances_block hg (by omega)) fun no hno => ?_
        exact advances_past (advances_closing _) fun _ _ => advances_pure (hcond hno)
    · exact advances_past (advances_closing _) fun _ _ =>
        advances_pure (hcond (List.forall_mem_nil _))

theorem advances_conditional {t : Token} (ht : R.tokens t) (hr : 2 * r ≤ g.bound) :
    Advances R P r 0 (conditional g t) (Stmt.Located R.place) :=
  advances_look fun _ => (advances_conditionalFrom hg ht (by omega) hr).mono (Nat.le_refl _)
    (Nat.le_refl _) (fun _ hc => hc.2 ▸ Nat.le_refl _) fun _ h => h

theorem advances_guarded {t : Token} (ht : R.tokens t) (hr : 2 * r ≤ g.bound) :
    Advances R P r 0 (guarded g t) (Stmt.Located R.place) := by
  refine advances_past (advances_expr hg hr) fun test htest => ?_
  refine advances_bind (advances_expectWord _ _).zero fun _ _ => ?_
  refine advances_bind (advances_block hg (by omega)) fun no hno => ?_
  exact advances_closed ht _ fun loc hloc =>
    .of_expr rfl hloc rfl rfl htest hno

theorem advances_whileLoop {t : Token} (ht : R.tokens t) (hr : 2 * r ≤ g.bound) :
    Advances R P r 0 (whileLoop g t) (Stmt.Located R.place) := by
  refine advances_past (advances_expr hg hr) fun test htest => ?_
  refine advances_bind (advances_block hg (by omega)) fun body hbody => ?_
  exact advances_closed ht _ fun loc hloc =>
    .of_expr rfl hloc rfl rfl htest hbody

theorem advances_endlessLoop {t : Token} (ht : R.tokens t) (hr : 2 * r ≤ g.bound) :
    Advances R P r 0 (endlessLoop g t) (Stmt.Located R.place) :=
  advances_bind (advances_block hg hr) fun _ hbody => advances_closed ht _ fun _ hloc =>
    .of_parts rfl hloc rfl (List.forall_mem_nil _) hbody

theorem advances_forLoop {t : Token} (ht : R.tokens t) (hr : 2 * r ≤ g.bound) :
    Advances R P r 0 (forLoop g t) (Stmt.Located R.place) := by
  refine advances_past (advances_expectName _) fun name _ => ?_
  refine advances_bind (advances_expectWord _ _).zero fun _ _ => ?_
  refine advances_bind (advances_expr hg (by omega)).zero fun iterable hiterable => ?_
  refine advances_bind (advances_block hg (by omega)) fun body hbody => ?_
  exact advances_closed ht _ fun loc hloc =>
    .of_expr rfl hloc rfl rfl hiterable hbody

theorem advances_attempt {t : Token} (ht : R.tokens t) (hr : 2 * r ≤ g.bound) :
    Advances R P r 0 (attempt g t) (Stmt.Located R.place) := by
  refine advances_bind (advances_block hg hr) fun body hbody => ?_
  refine advances_bind (advances_locate ht) fun loc hloc => ?_
  -- With a handler or without one.
  have hattempt {name : Option String} {handler : Option (List Stmt)}
      (hhandler : ∀ s ∈ handler.getD [], s.Located R.place) :
      (Stmt.attempt loc body name handler).Located R.place := by
    refine .of_parts rfl hloc rfl (List.forall_mem_nil _) fun s hs => ?_
    obtain hs | hs := List.mem_append.mp hs
    · exact hbody s hs
    · exact hhandler s hs
  refine advances_eatWord ?_ ?_ (Nat.zero_le 1) "catch"
  · refine advances_bind advances_jumpLabel fun name _ => ?_
    refine advances_bind (advances_block hg (by omega)) fun handler hhandler => ?_
    exact advances_past (advances_closing _) fun _ _ => advances_pure (hattempt hhandler)
  · exact advances_past (advances_closing _) fun _ _ =>
      advances_pure (hattempt (List.forall_mem_nil _))

theorem advances_giveBack {t : Token} (ht : R.tokens t) (hr : 2 * r ≤ g.bound) :
    Advances R P r 0 (giveBack g t) (Stmt.Located R.place) := by
  refine advances_look fun _ => advances_ite (fun _ => ?_) fun _ => ?_
  · exact advances_made ht fun loc hloc =>
      .leaf rfl hloc rfl rfl rfl
  · refine advances_past (advances_expr hg hr) fun value hvalue =>
      advances_made ht fun loc hloc => ?_
    exact .of_expr rfl hloc rfl rfl hvalue (List.forall_mem_nil _)

theorem advances_patternCase {t : Token} (ht : R.tokens t) (hr : 2 * r ≤ g.bound) :
    Advances R P r 0 (patternCase g t) (Case.Located R.place) := by
  refine advances_past (advances_pattern (by omega)) fun pattern _ => ?_
  have hrest (guard : Option Expr) (hguard : ∀ e ∈ guard, e.Located R.place) :
      Advances R (fun _ => True) (r - 1) 0 (do
        let _ ← expect .colon
          ⟨"SYN083", "Expected a colon (:) after the pattern in a match clause."⟩
        let body ← block g
        return Case.mk (some pattern) guard body (← locate t)) (Case.Located R.place) := by
    refine advances_bind (advances_expect (by decide) _).zero fun _ _ => ?_
    refine advances_bind (advances_block hg (by omega)) fun body hbody => ?_
    exact advances_bind (advances_locate ht) fun loc hloc => advances_pure ⟨hloc, hguard, hbody⟩
  refine advances_eatWord ?_ (advances_with (hrest none (by simp))) (Nat.zero_le 1) "when"
  refine advances_bind (advances_expr hg (by omega)).zero fun e he => advances_with ?_
  exact (hrest (some e) (by simpa using he)).le (by omega)

theorem advances_defaultCase {t : Token} (ht : R.tokens t) (hr : 2 * r ≤ g.bound) :
    Advances R P r 0 (defaultCase g t) (Case.Located R.place) := by
  refine advances_bind (advances_expect (by decide) _).zero fun _ _ => ?_
  refine advances_bind (advances_block hg hr) fun body hbody => ?_
  exact advances_bind (advances_locate ht) fun loc hloc =>
    advances_pure ⟨hloc, by simp [Case.guard?], hbody⟩

theorem advances_cases (h : r ≤ bound) (hr : 2 * r ≤ g.bound) :
    Advances R P r 0 (cases g bound) fun cs => ∀ c ∈ cs, c.Located R.place := by
  induction bound generalizing r P with
  | zero =>
    obtain rfl := Nat.le_zero.mp h
    exact advances_exhausted
  | succ bound ih =>
    -- A case of either kind is followed by the other cases in the same way.
    have hmore {t : Token} {word : String} (hword : t.isKeyword word = true) {x : Parser Case}
        (hx : Advances R (fun _ => True) (r - 1) 0 x (Case.Located R.place)) :
        Advances R (fun c => c.current = t) r 0 (do
          let _ ← advance
          let c ← x
          return c :: (← cases g bound)) fun cs => ∀ c ∈ cs, c.Located R.place := by
      refine advances_past (advances_take (kind_of_isKeyword hword)) fun _ _ => ?_
      refine advances_bind hx fun c hc => ?_
      refine advances_bind (ih (by omega) (by omega)) fun cs hcs => advances_pure ?_
      exact List.forall_mem_cons.mpr ⟨hc, hcs⟩
    refine advances_current fun t ht => advances_ite (fun hword => ?_) fun _ =>
      advances_ite (fun hword => ?_) fun _ => advances_pure (List.forall_mem_nil _)
    · exact hmore hword (advances_patternCase hg ht (by omega))
    · exact hmore hword (advances_defaultCase hg ht (by omega))

omit hg in
/-- A match over located cases. -/
theorem located_choose {loc : Location} (hloc : R.place loc) {value : Expr}
    (hvalue : value.Located R.place) {cs : List Case} (hcs : ∀ c ∈ cs, c.Located R.place) :
    (Stmt.choose loc value cs).Located R.place := by
  refine .intro ?_ (fun e he => ?_) (List.forall_mem_nil _) fun s hs => ?_
  · refine List.forall_mem_cons.mpr ⟨hloc, fun loc' hloc' => ?_⟩
    obtain ⟨c, hc, rfl⟩ := List.mem_map.mp hloc'
    exact (hcs c hc).here
  · obtain rfl | he := List.mem_cons.mp he
    · exact hvalue
    · obtain ⟨c, hc, he⟩ := List.mem_filterMap.mp he
      exact (hcs c hc).guard e he
  · obtain ⟨c, hc, hs⟩ := List.mem_flatMap.mp hs
    exact (hcs c hc).body s hs

theorem advances_choose {t : Token} (ht : R.tokens t) (hr : 2 * r ≤ g.bound) :
    Advances R P r 0 (choose g t) (Stmt.Located R.place) := by
  refine advances_past (advances_expr hg hr) fun value hvalue => ?_
  refine advances_bind (advances_cases hg (by omega) (by omega)) fun cs hcs => ?_
  refine advances_ite (fun _ => advances_fail ht) fun _ => ?_
  exact advances_closed ht _ fun loc hloc => located_choose hloc hvalue hcs

/-! ### Calls and modules -/

theorem advances_callStatement {t : Token} (ht : R.tokens t) (hr : 2 * r ≤ g.bound) :
    Advances R P r 0 (callStatement g t) (Stmt.Located R.place) := by
  refine advances_past (advances_callParts hg hr) fun call hcall => ?_
  have hmade (dest : Option String) (loc : Location) (hloc : R.place loc) :
      (Stmt.call loc call.1 call.2 dest).Located R.place :=
    .of_parts rfl hloc rfl (List.forall_mem_cons.mpr ⟨hcall.1, Expr.Located.elements hcall.2⟩)
      (List.forall_mem_nil _)
  refine advances_eatOperator ?_ (advances_made ht (hmade none)) (Nat.zero_le 1) "->"
  exact advances_past (advances_expect (by decide) _) fun dest _ => advances_made ht (hmade _)

omit hg in
theorem advances_load {t : Token} (ht : R.tokens t) :
    Advances R P r 0 (load t) (Stmt.Located R.place) := by
  have hmade (path name : String) (loc : Location) (hloc : R.place loc) :
      (Stmt.load loc path name).Located R.place :=
    .leaf rfl hloc rfl rfl rfl
  refine advances_look fun _ => advances_ite (fun _ => ?_) fun _ => ?_
  · refine advances_bind advances_advance_zero fun path _ => ?_
    refine advances_bind (advances_expectWord _ _).zero fun _ _ => ?_
    exact advances_past (advances_expect (by decide) _) fun name _ => advances_made ht (hmade _ _)
  · refine advances_bind (advances_expect (by decide) _).zero fun name _ => ?_
    refine advances_bind (advances_expectWord _ _).zero fun _ _ => ?_
    refine advances_bind (advances_expect (by decide) _).zero fun path _ => ?_
    refine advances_eatWord ?_ (advances_made ht (hmade _ _)) (Nat.zero_le 1) "as"
    exact advances_past (advances_expect (by decide) _) fun name _ => advances_made ht (hmade _ _)

theorem advances_exported {t : Token} (ht : R.tokens t) (hr : 2 * r ≤ g.bound) :
    Advances R P r 0 (exported g t) (Stmt.Located R.place) := by
  refine advances_look fun _ => advances_ite (fun _ => advances_fail ht) fun _ => ?_
  have he : ∀ t' ∈ some t, R.tokens t' := by simpa using ht
  refine advances_look fun word => ?_
  split
  case h_5 => exact (advances_functionDeclaration hg he (by omega)).zero
  case h_6 => exact advances_failHere
  case h_7 => exact advances_failHere
  all_goals exact (advances_declaration hg he (by omega)).zero

/-! ### Statements -/

theorem advances_expressionStatement (hr : 2 * r ≤ g.bound + 1) :
    Advances R P r 1 (expressionStatement g) (Stmt.Located R.place) :=
  advances_after (hg.expression hr) fun _ hvalue => advances_pure
    (.of_expr rfl hvalue.here rfl rfl hvalue (List.forall_mem_nil _))

omit hg in
/-- A jump with the label that may stand after it. -/
theorem advances_jump {t : Token} (ht : R.tokens t) {f : Location → Option String → Stmt}
    (hf : ∀ loc label, R.place loc → (f loc label).Located R.place) :
    Advances R P r 0 (do
      let label ← jumpLabel
      return f (← locate t) label) (Stmt.Located R.place) :=
  advances_bind advances_jumpLabel fun label _ => advances_made ht fun loc hloc => hf loc label hloc

/-- A statement that is made of one expression. -/
theorem advances_unary {t : Token} (ht : R.tokens t) (hr : 2 * r ≤ g.bound)
    {f : Location → Expr → Stmt}
    (hf : ∀ loc e, R.place loc → e.Located R.place → (f loc e).Located R.place) :
    Advances R P r 0 (do
      let value ← g.expression
      return f (← locate t) value) (Stmt.Located R.place) :=
  advances_past (advances_expr hg hr) fun value hvalue =>
    advances_made ht fun loc hloc => hf loc value hloc hvalue

theorem advances_wordStatement {t : Token} (ht : R.tokens t) (hk : t.kind ≠ .eof)
    (hr : 2 * r ≤ g.bound + 1) :
    Advances R (fun c => c.current = t) r 1 (wordStatement g t) (Stmt.Located R.place) := by
  -- Most words are taken here, and the rest of the statement is read after them.
  have hword {x : Parser Stmt}
      (hx : Advances R (fun _ => True) (r - 1) 0 x (Stmt.Located R.place)) :
      Advances R (fun c => c.current = t) r 1 (do let _ ← advance; x) (Stmt.Located R.place) :=
    advances_after (advances_take hk) fun _ _ => hx
  have hr' : 2 * (r - 1) ≤ g.bound := by omega
  unfold wordStatement
  split
  -- A declaration reads its own word, and some words begin an expression.
  case h_1 | h_2 | h_3 | h_4 => exact advances_declaration hg (by simp) hr
  case h_5 => exact advances_functionDeclaration hg (by simp) hr
  case h_6 | h_7 | h_8 | h_9 => exact (advances_expressionStatement hg hr).anywhere
  case h_10 => exact hword (advances_destructuring hg ht hr')
  case h_11 => exact hword (advances_conditional hg ht hr')
  case h_12 => exact hword (advances_guarded hg ht hr')
  case h_13 => exact hword (advances_forLoop hg ht hr')
  case h_14 => exact hword (advances_whileLoop hg ht hr')
  case h_15 => exact hword (advances_endlessLoop hg ht hr')
  case h_16 => exact hword (advances_jump ht fun _ _ hloc => .leaf rfl hloc rfl rfl rfl)
  case h_17 => exact hword (advances_jump ht fun _ _ hloc => .leaf rfl hloc rfl rfl rfl)
  case h_18 => exact hword (advances_attempt hg ht hr')
  case h_19 => exact hword (advances_callStatement hg ht hr')
  case h_20 => exact hword (advances_giveBack hg ht hr')
  case h_21 =>
    exact hword (advances_unary hg ht hr' fun _ _ hloc he =>
      .of_expr rfl hloc rfl rfl he (List.forall_mem_nil _))
  case h_22 =>
    exact hword (advances_unary hg ht hr' fun _ _ hloc he =>
      .of_expr rfl hloc rfl rfl he (List.forall_mem_nil _))
  case h_23 => exact hword (advances_choose hg ht hr')
  case h_24 => exact hword (advances_load ht)
  case h_25 => exact hword (advances_exported hg ht hr')
  case h_26 => exact advances_fail ht

theorem advances_statementWith (hr : 2 * r ≤ g.bound + 1) :
    Advances R P r 1 (statementWith g) (Stmt.Located R.place) := by
  refine advances_current fun t ht => advances_ite (fun _ => advances_fail ht) fun hk => ?_
  refine advances_ite (fun hword => advances_wordStatement hg ht hk hr) fun _ => ?_
  refine advances_look fun colon => advances_ite (fun hname => ?_) fun _ => ?_
  -- The colon after a label is not taken for granted: the end of the input may stand there.
  · have hat (c : Cursor) (hc : c.current = t ∧ c.peek 1 = colon) : c.atEnd = false :=
      atEnd_of_current hc.1 hk
    refine advances_after (advances_advance hat) fun _ _ => ?_
    refine advances_bind advances_advance_zero fun _ _ => ?_
    refine advances_past (hg.statement (by omega)) fun body hbody => ?_
    exact advances_made ht fun loc hloc => hbody.labeled hloc
  · exact (advances_expressionStatement hg hr).anywhere

omit hg in
/-- The bound on the repetitions is one below the depth, if there is any depth. -/
theorem le_bound_ofBound (n : Nat) : n ≤ (Grammar.ofBound n).bound + 1 := by
  cases n with
  | zero => exact Nat.zero_le _
  | succ n => exact Nat.le_refl _

omit hg in
/-- **The grammar lasts** at every depth, for as many tokens as half the depth. -/
theorem lasts_ofBound (n : Nat) : Lasts R (Grammar.ofBound n) := by
  induction n with
  | zero =>
    -- Nothing is claimed of a grammar without depth, since there `r` is zero.
    refine ⟨fun {r P} h => ?_, fun {r P} h => ?_⟩
    · obtain rfl : r = 0 := by
        change 2 * r ≤ 0 + 1 at h
        omega
      exact advances_exhausted
    · obtain rfl : r = 0 := by
        change 2 * r ≤ 0 at h
        omega
      exact advances_exhausted
  | succ n ih =>
    have hbound := le_bound_ofBound n
    refine ⟨fun {r P} h => ?_, fun {r P} h => ?_⟩
    · change 2 * r ≤ n + 1 at h
      exact advances_expressionWith ih (by omega)
    · change 2 * r ≤ n at h
      exact advances_statementWith ih (by omega)

end ScriptLang.Grammar
