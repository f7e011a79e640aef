import ScriptLang.Grammar.Program
import ScriptLang.Proofs.ConcursExpression

/-!
# Two runs of the rules for statements

The rules for statements concur with themselves (`Parser.Concurs`), and with those for expressions
so does the grammar at every depth (`Grammar.concurs_ofBound`) and the parser of programs
(`Program.concurs_whole`).

Two rules look at where a token stands. A declaration asks whether a bracket touches the name before
it, and a write whether one touches the token before it. The name is the token before, so both ask
the same: whether the cursor is at a bracket that is adjacent to the token before
(`Relayout.Abreast.bracketAdjacent`).
-/

open ScriptLang.Parser

namespace ScriptLang.Grammar

variable {L : Relayout} {g : Grammar} {bound : Nat}

theorem concurs_closing (clause : Clause) :
    Parser.Concurs L (closing clause) (closing clause) fun _ _ => True :=
  concurs_bind (concurs_expectWord _ _) fun _ _ _ => concurs_pure trivial

/-! ### Declarations and writes -/

/-- After a name, a write into a member of it is one at a dot or an adjacent bracket. -/
theorem isMemberWrite_current {c : Cursor} (hlast : c.last.kind = .eof) (h : c.atEnd = false) :
    isMemberWrite c.current c.advance =
      (c.advance.checkOperator "." || (c.advance.check .leftBracket && c.advance.adjacent)) := by
  simp only [isMemberWrite, Cursor.adjacent, Cursor.previous?_advance hlast h]

/-- What follows a name and a look whether a member of it is written. -/
theorem concurs_nameThen {β : Type} {clause : Clause} {k k' : Token → Bool → Parser β}
    {q : β → β → Prop} (hk : ∀ t t' b, L.Twins t t' → Parser.Concurs L (k t b) (k' t' b) q) :
    Parser.Concurs L
      (do
        let name ← expect .identifier clause
        let b ← look (isMemberWrite name)
        k name b)
      (do
        let name ← expect .identifier clause
        let b ← look (isMemberWrite name)
        k' name b) q := by
  intro c c' hc
  have ht := hc.current
  -- The look is at the token in front of the cursor, which the cursor does not carry with it.
  -- Behind the name it is the name, so both parsers are compared from there.
  have hexpect (d : Cursor) : expect .identifier clause d =
      if d.current.kind = .identifier then .ok (d.current, d.advance)
      else .error
        (.fault (.expected clause .identifier none d.current) d.current (.of d.position)) := by
    change (if d.current.kind = .identifier then advance else _ : Parser Token) d = _
    split <;> rfl
  change Alike L q
    ((expect .identifier clause c).bind fun r => k r.1 (isMemberWrite r.1 r.2) r.2)
    ((expect .identifier clause c').bind fun r => k' r.1 (isMemberWrite r.1 r.2) r.2)
  rw [hexpect, hexpect, ht.kind]
  by_cases hkind : c.current.kind = .identifier
  · rw [if_pos hkind, if_pos hkind]
    have hend : c.atEnd = false := atEnd_of_current rfl (by simp [hkind])
    have hwrite : isMemberWrite c.current c.advance = isMemberWrite c'.current c'.advance := by
      rw [isMemberWrite_current (by rw [hc.last, L.closed]) hend,
        isMemberWrite_current (by rw [hc.last', Relayout.twins_last.kind, L.closed])
          (hc.atEnd ▸ hend),
        hc.advance.checkOperator, hc.advance.bracketAdjacent]
    change Alike L q (k c.current (isMemberWrite c.current c.advance) c.advance)
      (k' c'.current (isMemberWrite c'.current c'.advance) c'.advance)
    rw [← hwrite]
    exact hk _ _ _ ht _ _ hc.advance
  · rw [if_neg hkind, if_neg hkind]
    have hwording : (GrammarFault.expected clause .identifier none c.current).Agrees
        (.expected clause .identifier none c'.current) := by
      obtain ⟨span, line, column, file, he⟩ := ht.exists_eq
      rw [he]
      exact ⟨rfl, rfl, rfl⟩
    exact .fault hwording ht

section Rules

variable (hg : g.Concurs L)
include hg

theorem concurs_writeTarget {base base' : Expr} (hbase : Agree Expr.placeless base base') :
    Parser.Concurs L (writeTarget g bound base) (writeTarget g bound base')
      (Agree Expr.placeless) := by
  induction bound generalizing base base' with
  | zero => exact concurs_exhausted
  | succ bound ih =>
    refine concurs_bind concurs_current fun t t' ht => ?_
    obtain ⟨span, line, column, file, rfl⟩ := ht.exists_eq
    refine concurs_ite ?_ ?_
    · refine concurs_bind concurs_advance fun _ _ _ => ?_
      refine concurs_bind (concurs_expect _ _) fun name name' hname => ?_
      exact concurs_bind concurs_locate fun _ _ _ => ih (agree_property hbase hname.value.symm)
    · refine concurs_look (fun _ _ h => h.bracketAdjacent) fun _ => ?_
      refine concurs_ite ?_ (concurs_pure hbase)
      refine concurs_bind concurs_advance fun _ _ _ => ?_
      exact concurs_bind (concurs_bracketMember hg hbase _ _ _) fun _ _ hnext => ih hnext

theorem concurs_memberWrite {loc loc' : Location} {t t' : Token} (ht : L.Twins t t') :
    Parser.Concurs L (memberWrite g loc t) (memberWrite g loc' t') (Agree Stmt.placeless) := by
  refine concurs_bind concurs_locate fun here here' _ => ?_
  have hname : Agree Expr.placeless (.ident here t.value) (.ident here' t'.value) :=
    congrArg (Expr.ident default) ht.value.symm
  refine concurs_bind (concurs_writeTarget hg hname) fun target target' htarget => ?_
  refine concurs_bind hg.expression fun value value' hvalue => ?_
  -- Targets that agree are of one kind; only members can be written.
  cases target <;> cases target' <;> simp only [Agree, Expr.placeless, reduceCtorEq] at htarget
  case property.property =>
    refine concurs_pure ?_
    simp only [Expr.property.injEq] at htarget
    simp only [Agree, Stmt.placeless]
    rw [htarget.2.1, htarget.2.2.1, hvalue]
  case index.index =>
    refine concurs_pure ?_
    simp only [Expr.index.injEq] at htarget
    simp only [Agree, Stmt.placeless]
    rw [htarget.2.1, htarget.2.2.1, hvalue]
  all_goals exact concurs_fail (.refl _) ht

theorem concurs_declaration {exporting exporting' : Option Token}
    (hexporting : exporting.isSome = exporting'.isSome) :
    Parser.Concurs L (declaration g exporting) (declaration g exporting')
      (Agree Stmt.placeless) := by
  refine concurs_bind (concurs_expectWords _ _) fun t t' ht => ?_
  refine concurs_bind concurs_locate fun loc loc' _ => ?_
  rw [ht.value]
  refine concurs_look (fun _ _ h => by rw [h.check, h.check]) fun _ => concurs_ite ?_ ?_
  · refine concurs_bind concurs_destructure fun p p' hp => ?_
    obtain rfl := hp
    refine concurs_bind hg.expression fun value value' hvalue => concurs_pure ?_
    simp only [Agree, Stmt.placeless]
    rw [hvalue, hexporting]
  · refine concurs_nameThen fun name name' b hname => concurs_ite ?_ ?_
    · exact concurs_ite (concurs_memberWrite hg hname) (concurs_fail (.refl _) ht)
    · refine concurs_bind hg.expression fun value value' hvalue => concurs_pure ?_
      simp only [Agree, Stmt.placeless]
      rw [hvalue, hname.value, hexporting]

theorem concurs_destructuring (t t' : Token) :
    Parser.Concurs L (destructuring g t) (destructuring g t') (Agree Stmt.placeless) := by
  refine concurs_bind concurs_destructure fun p p' hp => ?_
  obtain rfl := hp
  refine concurs_bind (concurs_expectWord _ _) fun _ _ _ => ?_
  refine concurs_bind hg.expression fun value value' hvalue => ?_
  exact concurs_bind concurs_locate fun _ _ _ =>
    concurs_pure (congrArg (Stmt.destructure default p) hvalue)

theorem concurs_functionDeclaration {exporting exporting' : Option Token}
    (hexporting : exporting.isSome = exporting'.isSome) :
    Parser.Concurs L (functionDeclaration g exporting) (functionDeclaration g exporting')
      (Agree Stmt.placeless) := by
  refine concurs_bind (concurs_expectWord _ _) fun t t' _ => ?_
  refine concurs_bind (concurs_expect _ _) fun name name' hname => ?_
  refine concurs_bind (concurs_expect _ _) fun _ _ _ => ?_
  refine concurs_bind (concurs_params hg _) fun ps ps' hps => ?_
  refine concurs_bind (concurs_functionBody hg) fun ss ss' hss => ?_
  refine concurs_bind concurs_locate fun loc loc' _ => ?_
  refine concurs_bind concurs_locate fun here here' _ => concurs_pure ?_
  rw [hname.value, ← hexporting]
  exact congrArg (Stmt.function default · _) (agree_function hps hss)

/-! ### Control flow -/

theorem concurs_conditionalFrom (start depth : Nat) (t t' : Token) :
    Parser.Concurs L (conditionalFrom g start bound depth t)
      (conditionalFrom g start bound depth t') (Agree Stmt.placeless) := by
  induction bound generalizing depth t t' with
  | zero => exact concurs_exhausted
  | succ bound ih =>
    refine concurs_bind (concurs_enter _ _) fun _ _ _ => ?_
    refine concurs_bind hg.expression fun test test' htest => ?_
    refine concurs_bind (concurs_block hg) fun yes yes' hyes => ?_
    refine concurs_bind concurs_locate fun loc loc' _ => ?_
    -- What follows the condition agrees, so the statement does.
    have hcond {no no' : Else} (hno : Agree Else.placeless no no') :
        Agree Stmt.placeless (.cond loc test yes no) (.cond loc' test' yes' no') := by
      simp only [Agree, Stmt.placeless]
      rw [htest, hyes, hno]
    refine concurs_eatWord ?_ ?_ "else"
    · refine concurs_look (fun _ _ h => h.checkKeyword _) fun _ => concurs_ite ?_ ?_
      · refine concurs_bind concurs_advance fun word word' _ => ?_
        exact concurs_bind (ih (depth + 1) word word') fun next next' hnext =>
          concurs_pure (hcond (congrArg Else.elseIf hnext))
      · refine concurs_bind (concurs_block hg) fun no no' hno => ?_
        exact concurs_bind (concurs_closing _) fun _ _ _ =>
          concurs_pure (hcond (congrArg Else.block hno))
    · exact concurs_bind (concurs_closing _) fun _ _ _ => concurs_pure (hcond rfl)

theorem concurs_conditional (t t' : Token) :
    Parser.Concurs L (conditional g t) (conditional g t') (Agree Stmt.placeless) :=
  concurs_look (fun _ _ h => h.position.symm) fun start =>
    concurs_conditionalFrom hg start 0 t t'

theorem concurs_guarded (t t' : Token) :
    Parser.Concurs L (guarded g t) (guarded g t') (Agree Stmt.placeless) := by
  refine concurs_bind hg.expression fun test test' htest => ?_
  refine concurs_bind (concurs_expectWord _ _) fun _ _ _ => ?_
  refine concurs_bind (concurs_block hg) fun no no' hno => ?_
  refine concurs_bind (concurs_closing _) fun _ _ _ => ?_
  exact concurs_bind concurs_locate fun _ _ _ =>
    concurs_pure (congrArg₂ (Stmt.guard default) htest hno)

theorem concurs_whileLoop (t t' : Token) :
    Parser.Concurs L (whileLoop g t) (whileLoop g t') (Agree Stmt.placeless) := by
  refine concurs_bind hg.expression fun test test' htest => ?_
  refine concurs_bind (concurs_block hg) fun body body' hbody => ?_
  refine concurs_bind (concurs_closing _) fun _ _ _ => ?_
  exact concurs_bind concurs_locate fun _ _ _ =>
    concurs_pure (congrArg₂ (Stmt.whileLoop default) htest hbody)

theorem concurs_endlessLoop (t t' : Token) :
    Parser.Concurs L (endlessLoop g t) (endlessLoop g t') (Agree Stmt.placeless) := by
  refine concurs_bind (concurs_block hg) fun body body' hbody => ?_
  refine concurs_bind (concurs_closing _) fun _ _ _ => ?_
  exact concurs_bind concurs_locate fun _ _ _ => concurs_pure (congrArg (Stmt.loop default) hbody)

theorem concurs_forLoop (t t' : Token) :
    Parser.Concurs L (forLoop g t) (forLoop g t') (Agree Stmt.placeless) := by
  refine concurs_bind (concurs_expectName _) fun name name' hname => ?_
  refine concurs_bind (concurs_expectWord _ _) fun _ _ _ => ?_
  refine concurs_bind hg.expression fun e e' he => ?_
  refine concurs_bind (concurs_block hg) fun body body' hbody => ?_
  refine concurs_bind (concurs_closing _) fun _ _ _ => ?_
  refine concurs_bind concurs_locate fun _ _ _ => concurs_pure ?_
  rw [hname.value]
  exact congrArg₂ (Stmt.forEach default name.value) he hbody

omit hg in
theorem concurs_jumpLabel : Parser.Concurs L jumpLabel jumpLabel Eq := by
  refine concurs_look (fun _ _ h => h.check _) fun _ => concurs_ite ?_ (concurs_pure rfl)
  exact concurs_bind concurs_advance fun t t' ht => concurs_pure (congrArg some ht.value.symm)

theorem concurs_attempt (t t' : Token) :
    Parser.Concurs L (attempt g t) (attempt g t') (Agree Stmt.placeless) := by
  refine concurs_bind (concurs_block hg) fun body body' hbody => ?_
  refine concurs_bind concurs_locate fun loc loc' _ => ?_
  refine concurs_eatWord ?_ ?_ "catch"
  · refine concurs_bind concurs_jumpLabel fun name name' hname => ?_
    obtain rfl := hname
    refine concurs_bind (concurs_block hg) fun handler handler' hhandler => ?_
    refine concurs_bind (concurs_closing _) fun _ _ _ => concurs_pure ?_
    simp only [Agree, Stmt.placeless, placelessHandler]
    rw [hbody, hhandler]
  · refine concurs_bind (concurs_closing _) fun _ _ _ => concurs_pure ?_
    simp only [Agree, Stmt.placeless]
    rw [hbody]

theorem concurs_giveBack (t t' : Token) :
    Parser.Concurs L (giveBack g t) (giveBack g t') (Agree Stmt.placeless) := by
  refine concurs_look (fun _ _ h => h.endsBlock) fun _ => concurs_ite ?_ ?_
  · exact concurs_bind concurs_locate fun _ _ _ => concurs_pure rfl
  · refine concurs_bind hg.expression fun value value' hvalue => ?_
    exact concurs_bind concurs_locate fun _ _ _ =>
      concurs_pure (congrArg (fun e => Stmt.giveBack default (some e)) hvalue)

theorem concurs_patternCase (t t' : Token) :
    Parser.Concurs L (patternCase g t) (patternCase g t') (Agree Case.placeless) := by
  refine concurs_bind concurs_pattern fun p p' hp => ?_
  obtain rfl := hp
  -- The rest of the case, with a condition or without one.
  have hrest {guard guard' : Option Expr} (hguard : Agree placelessExpr? guard guard') :
      Parser.Concurs L
        (do
          let _ ← expect .colon
            ⟨"SYN083", "Expected a colon (:) after the pattern in a match clause."⟩
          let body ← block g
          return Case.mk (some p) guard body (← locate t))
        (do
          let _ ← expect .colon
            ⟨"SYN083", "Expected a colon (:) after the pattern in a match clause."⟩
          let body ← block g
          return Case.mk (some p) guard' body (← locate t')) (Agree Case.placeless) := by
    refine concurs_bind (concurs_expect _ _) fun _ _ _ => ?_
    refine concurs_bind (concurs_block hg) fun body body' hbody => ?_
    refine concurs_bind concurs_locate fun _ _ _ => concurs_pure ?_
    exact congrArg₂ (Case.mk (some p) · · default) hguard hbody
  refine concurs_eatWord ?_ ?_ "when"
  · exact concurs_bind hg.expression fun e e' he => concurs_with (hrest (congrArg some he))
  · exact concurs_with (hrest rfl)

theorem concurs_defaultCase (t t' : Token) :
    Parser.Concurs L (defaultCase g t) (defaultCase g t') (Agree Case.placeless) := by
  refine concurs_bind (concurs_expect _ _) fun _ _ _ => ?_
  refine concurs_bind (concurs_block hg) fun body body' hbody => ?_
  exact concurs_bind concurs_locate fun _ _ _ =>
    concurs_pure (congrArg (Case.mk none none · default) hbody)

theorem concurs_cases :
    Parser.Concurs L (cases g bound) (cases g bound) (Agree placelessCases) := by
  induction bound with
  | zero => exact concurs_exhausted
  | succ bound ih =>
    refine concurs_bind concurs_current fun t t' ht => ?_
    obtain ⟨span, line, column, file, rfl⟩ := ht.exists_eq
    have hcons {x x' : Parser Case} (hx : Parser.Concurs L x x' (Agree Case.placeless)) :
        Parser.Concurs L (do let c ← x; return c :: (← cases g bound))
          (do let c ← x'; return c :: (← cases g bound)) (Agree placelessCases) :=
      concurs_bind hx fun c c' hc => concurs_bind ih fun cs cs' hcs =>
        concurs_pure (congrArg₂ List.cons hc hcs)
    refine concurs_ite ?_ (concurs_ite ?_ ?_)
    · exact concurs_bind concurs_advance fun _ _ _ => hcons (concurs_patternCase hg _ _)
    · exact concurs_bind concurs_advance fun _ _ _ => hcons (concurs_defaultCase hg _ _)
    · exact concurs_pure rfl

theorem concurs_choose {t t' : Token} (ht : L.Twins t t') :
    Parser.Concurs L (choose g t) (choose g t') (Agree Stmt.placeless) := by
  refine concurs_bind hg.expression fun value value' hvalue => ?_
  refine concurs_bind (concurs_cases hg) fun cs cs' hcs => ?_
  have hempty : cs.isEmpty = cs'.isEmpty := by
    cases cs <;> cases cs' <;> first | rfl | cases hcs
  rw [hempty]
  refine concurs_ite (concurs_fail (.refl _) ht) ?_
  refine concurs_bind (concurs_closing _) fun _ _ _ => ?_
  exact concurs_bind concurs_locate fun _ _ _ =>
    concurs_pure (congrArg₂ (Stmt.choose default) hvalue hcs)

/-! ### Calls and modules -/

theorem concurs_callStatement (t t' : Token) :
    Parser.Concurs L (callStatement g t) (callStatement g t') (Agree Stmt.placeless) := by
  refine concurs_bind (concurs_callParts hg) fun call call' hcall => ?_
  have hstmt {dest : Option String} {loc loc' : Location} : Agree Stmt.placeless
      (.call loc call.1 call.2 dest) (.call loc' call'.1 call'.2 dest) := by
    simp only [Agree, Stmt.placeless]
    rw [hcall.1, hcall.2]
  refine concurs_eatOperator ?_ ?_ "->"
  · refine concurs_bind (concurs_expect _ _) fun dest dest' hdest => ?_
    rw [hdest.value]
    exact concurs_bind concurs_locate fun _ _ _ => concurs_pure hstmt
  · exact concurs_bind concurs_locate fun _ _ _ => concurs_pure hstmt

omit hg in
theorem concurs_load (t t' : Token) :
    Parser.Concurs L (load t) (load t') (Agree Stmt.placeless) := by
  -- Path and name are the texts of tokens.
  have hload {path path' name name' : Token} (hpath : L.Twins path path')
      (hname : L.Twins name name') : Parser.Concurs L
        (do return Stmt.load (← locate t) path.value name.value)
        (do return Stmt.load (← locate t') path'.value name'.value) (Agree Stmt.placeless) := by
    rw [hpath.value, hname.value]
    exact concurs_bind concurs_locate fun _ _ _ => concurs_pure rfl
  refine concurs_look (fun _ _ h => h.check _) fun _ => concurs_ite ?_ ?_
  · refine concurs_bind concurs_advance fun path path' hpath => ?_
    refine concurs_bind (concurs_expectWord _ _) fun _ _ _ => ?_
    exact concurs_bind (concurs_expect _ _) fun name name' hname => hload hpath hname
  · refine concurs_bind (concurs_expect _ _) fun name name' hname => ?_
    refine concurs_bind (concurs_expectWord _ _) fun _ _ _ => ?_
    refine concurs_bind (concurs_expect _ _) fun path path' hpath => ?_
    refine concurs_eatWord ?_ (hload hpath hname) "as"
    exact concurs_bind (concurs_expect _ _) fun short short' hshort => hload hpath hshort

theorem concurs_exported {t t' : Token} (ht : L.Twins t t') :
    Parser.Concurs L (exported g t) (exported g t') (Agree Stmt.placeless) := by
  refine concurs_look (fun _ _ h => h.atEnd) fun _ => ?_
  refine concurs_ite (concurs_fail (.refl _) ht) ?_
  refine concurs_look (fun _ _ h => h.keyword?) fun word => ?_
  split
  · exact concurs_declaration hg rfl
  · exact concurs_declaration hg rfl
  · exact concurs_declaration hg rfl
  · exact concurs_declaration hg rfl
  · exact concurs_functionDeclaration hg rfl
  · exact concurs_failHere _
  · exact concurs_failHere _

/-! ### Statements -/

theorem concurs_expressionStatement :
    Parser.Concurs L (expressionStatement g) (expressionStatement g) (Agree Stmt.placeless) :=
  concurs_bind hg.expression fun _ _ hvalue => concurs_pure (congrArg (Stmt.expr default) hvalue)

omit hg in
/-- A rule after the word that starts it. -/
theorem concurs_afterWord {x x' : Parser Stmt} (hx : Parser.Concurs L x x' (Agree Stmt.placeless)) :
    Parser.Concurs L (do let _ ← advance; x) (do let _ ← advance; x') (Agree Stmt.placeless) :=
  concurs_bind concurs_advance fun _ _ _ => hx

omit hg in
/-- A jump and its label. -/
theorem concurs_jump {t t' : Token} {f : Location → Option String → Stmt}
    (hf : ∀ loc loc' label, Agree Stmt.placeless (f loc label) (f loc' label)) :
    Parser.Concurs L (do let label ← jumpLabel; return f (← locate t) label)
      (do let label ← jumpLabel; return f (← locate t') label) (Agree Stmt.placeless) := by
  refine concurs_bind concurs_jumpLabel fun label label' hlabel => ?_
  obtain rfl := hlabel
  exact concurs_bind concurs_locate fun loc loc' _ => concurs_pure (hf loc loc' label)

/-- A statement that is a word and a value. -/
theorem concurs_ofValue {t t' : Token} {f : Location → Expr → Stmt}
    (hf : ∀ loc loc' e e', Agree Expr.placeless e e' → Agree Stmt.placeless (f loc e) (f loc' e')) :
    Parser.Concurs L (do let value ← g.expression; return f (← locate t) value)
      (do let value ← g.expression; return f (← locate t') value) (Agree Stmt.placeless) :=
  concurs_bind hg.expression fun e e' he =>
    concurs_bind concurs_locate fun loc loc' _ => concurs_pure (hf loc loc' e e' he)

theorem concurs_wordStatement {t t' : Token} (ht : L.Twins t t') :
    Parser.Concurs L (wordStatement g t) (wordStatement g t') (Agree Stmt.placeless) := by
  unfold wordStatement
  rw [ht.value]
  split
  case h_1 | h_2 | h_3 | h_4 => exact concurs_declaration hg rfl
  case h_5 => exact concurs_functionDeclaration hg rfl
  case h_6 | h_7 | h_8 | h_9 => exact concurs_expressionStatement hg
  case h_10 => exact concurs_afterWord (concurs_destructuring hg _ _)
  case h_11 => exact concurs_afterWord (concurs_conditional hg _ _)
  case h_12 => exact concurs_afterWord (concurs_guarded hg _ _)
  case h_13 => exact concurs_afterWord (concurs_forLoop hg _ _)
  case h_14 => exact concurs_afterWord (concurs_whileLoop hg _ _)
  case h_15 => exact concurs_afterWord (concurs_endlessLoop hg _ _)
  case h_16 | h_17 => exact concurs_afterWord (concurs_jump fun _ _ _ => rfl)
  case h_18 => exact concurs_afterWord (concurs_attempt hg _ _)
  case h_19 => exact concurs_afterWord (concurs_callStatement hg _ _)
  case h_20 => exact concurs_afterWord (concurs_giveBack hg _ _)
  case h_21 =>
    exact concurs_afterWord (concurs_ofValue hg fun _ _ _ _ he => congrArg (Stmt.print default) he)
  case h_22 =>
    exact concurs_afterWord (concurs_ofValue hg fun _ _ _ _ he => congrArg (Stmt.raise default) he)
  case h_23 => exact concurs_afterWord (concurs_choose hg ht)
  case h_24 => exact concurs_afterWord (concurs_load _ _)
  case h_25 => exact concurs_afterWord (concurs_exported hg ht)
  case h_26 => exact concurs_fail (.refl _) ht

theorem concurs_statementWith :
    Parser.Concurs L (statementWith g) (statementWith g) (Agree Stmt.placeless) := by
  refine concurs_bind concurs_current fun t t' ht => ?_
  obtain ⟨span, line, column, file, rfl⟩ := ht.exists_eq
  refine concurs_ite (concurs_fail (.refl _) ht) (concurs_ite (concurs_wordStatement hg ht) ?_)
  refine concurs_bind (p := L.Twins) (fun c c' hc => .ok (hc.peek 1) hc)
    fun ahead ahead' hahead => ?_
  rw [hahead.kind]
  refine concurs_ite ?_ (concurs_expressionStatement hg)
  refine concurs_bind concurs_advance fun _ _ _ => ?_
  refine concurs_bind concurs_advance fun _ _ _ => ?_
  refine concurs_bind hg.statement fun body body' hbody => ?_
  exact concurs_bind concurs_locate fun _ _ _ =>
    concurs_pure (congrArg (Stmt.labeled default t.value) hbody)

end Rules

/-- The grammar concurs at every depth. -/
theorem concurs_ofBound (n : Nat) : (ofBound n).Concurs L := by
  induction n with
  | zero => exact ⟨concurs_exhausted, concurs_exhausted⟩
  | succ n ih => exact ⟨concurs_expressionWith ih, concurs_statementWith ih⟩

end ScriptLang.Grammar

namespace ScriptLang.Program

variable {L : Relayout} {g : Grammar} {bound : Nat}

theorem concurs_body (hg : g.Concurs L) :
    Concurs L (body g bound) (body g bound) (Agree placelessStmts) := by
  induction bound with
  | zero => exact concurs_exhausted
  | succ bound ih =>
    refine concurs_look (fun _ _ h => h.atEnd) fun _ => concurs_ite (concurs_pure rfl) ?_
    refine concurs_bind hg.statement fun s s' hs => ?_
    exact concurs_bind ih fun ss ss' hss => concurs_pure (congrArg₂ List.cons hs hss)

theorem concurs_whole (hg : g.Concurs L) :
    Concurs L (parser g) (parser g) (Agree Program.placeless) := by
  refine concurs_bind concurs_current fun t t' _ => ?_
  refine concurs_bind concurs_locate fun loc loc' _ => ?_
  refine concurs_bind (concurs_body hg) fun ss ss' hss => concurs_pure ?_
  exact congrArg (Program.mk · default) hss

end ScriptLang.Program
