import ScriptLang.Proofs.SpansExpression

/-!
# How statements and programs are read

The judgement `Parser.Spans` for the parsers of statements, and with it `Grammar.Lays` for the
grammar that programs are read with, at every depth (`Grammar.lays_ofBound`).

A member write is read as an expression first and then taken apart. `Grammar.Written` is what is
known of that expression: it is not in parentheses, so its outermost member was read last.
-/

namespace ScriptLang.Grammar

open ScriptLang.Parser Construct

variable {b : Input} {i s : Nat} {bound : Nat}

/-! ### Ends and labels -/

theorem spans_closing (clause : Clause) : Spans b i (closing clause) fun j _ => j = i + 1 :=
  spans_after (spans_expectWord _ _) (spans_pure rfl)

/-- An end and the statement that it ends, which has the location of its first token. -/
theorem spans_closed (clause : Clause) {f : Location → Stmt}
    (h : Occupies b.place (.stmt (f (b.place s))) s (i + 1)) :
    Spans b i (do closing clause; return f (← locate (b.token s)))
      fun j s' => Occupies b.place (.stmt s') s j := by
  refine spans_bind (spans_closing clause) ?_
  rintro _ _ - rfl
  exact spans_locate (spans_pure h)

theorem spans_jumpLabel :
    Spans b i jumpLabel fun j label => j = i + label.toList.length := by
  refine spans_look (spans_ite (fun h => ?_) fun _ => spans_pure rfl)
  have hkind : (b.token i).kind = .identifier := by simpa [Cursor.check] using h
  exact spans_advance (by simp [hkind]) (spans_pure rfl)

variable {g : Grammar} (hg : g.Lays b)
include hg

/-! ### Declarations and writes -/

/-- The target of a member write: a name, or a member that is not in parentheses. -/
inductive Written (b : Input) : Expr → Nat → Nat → Prop
  | name {i : Nat} (name : String) : Written b (.ident (b.place i) name) i (i + 1)
  | property {base : Expr} {name : String} {i j : Nat}
    (object : Occupies b.place (.expr base) i j) :
    Written b (.property (b.place (j + 1)) base name false) i (j + 2)
  | index {base key : Expr} {i j k : Nat} (object : Occupies b.place (.expr base) i j)
    (key_ : Occupies b.place (.expr key) (j + 1) k) :
    Written b (.index (b.place j) base key false) i (k + 1)

omit hg in
theorem Written.occupies {e : Expr} {i j : Nat} (h : Written b e i j) :
    Occupies b.place (.expr e) i j := by
  cases h with
  | name => exact .ident _
  | property object => exact .property object
  | index object key => exact .index object key

theorem spans_writeTarget {base : Expr} (hbase : Written b base s i) :
    Spans b i (writeTarget g bound base) fun j e => Written b e s j := by
  induction bound generalizing i base with
  | zero => exact spans_exhausted
  | succ bound ih =>
    refine spans_current (spans_ite (fun hdot => ?_) fun _ => ?_)
    · refine spans_advance (kind_of_isOperator hdot) (spans_after (spans_expect (by decide) _) ?_)
      exact spans_locate (ih (.property hbase.occupies))
    · refine spans_look (spans_ite (fun hbracket => ?_) fun _ => spans_pure hbase)
      have hkind : (b.token i).kind = .leftBracket := by
        have h : (b.movedTo i).check .leftBracket = true := by simp_all
        simpa [Cursor.check] using h
      refine spans_advance (by simp [hkind])
        (spans_bind (spans_bracketMember hg _) fun j next _ hnext => ?_)
      obtain ⟨key, k, rfl, hkey, rfl⟩ := hnext
      exact ih (.index hbase.occupies hkey)

/-- The name of the write is the token before place `i`; the location is that of a token before it,
the word that declares or the one that exports. -/
theorem spans_memberWrite {exported : Bool} (hi : i = s + exportLead exported + 1) :
    Spans b (i + 1) (memberWrite g (b.place s) (b.token i))
      fun j st => Occupies b.place (.stmt st) s j := by
  refine spans_locate (spans_bind (spans_writeTarget hg (.name _)) fun j target hij htarget => ?_)
  refine spans_bind (hg.expression j) fun k value hjk hvalue => ?_
  subst hi
  -- The target is taken apart again; its parts are those that have been read.
  split
  · cases htarget with
    | property object => exact spans_pure (.setProperty object hvalue)
  · cases htarget with
    | index object key => exact spans_pure (.setIndex object key hvalue)
  · exact spans_fail (by omega)

omit hg in
/-- The word that exports a declaration stands directly before it and is its first token. -/
def exporting (b : Input) (s : Nat) (exported : Bool) : Option Token :=
  if exported then some (b.token s) else none

omit hg in
theorem exporting_getD (exported : Bool) (hi : i = s + exportLead exported) :
    (exporting b s exported).getD (b.token i) = b.token s := by
  cases exported <;> simp_all [exporting, exportLead]

omit hg in
theorem exporting_isSome (exported : Bool) : (exporting b s exported).isSome = exported := by
  cases exported <;> rfl

theorem spans_declaration (exported : Bool) (hi : i = s + exportLead exported) :
    Spans b i (declaration g (exporting b s exported)) fun j st =>
      Occupies b.place (.stmt st) s j := by
  refine spans_after (spans_expectWords _ _) ?_
  rw [exporting_getD exported hi, exporting_isSome]
  refine spans_locate (spans_look (spans_ite (fun _ => ?_) fun _ => ?_))
  · refine spans_bind spans_destructure fun j pattern _ hj => ?_
    refine spans_bind (hg.expression j) fun k value _ hvalue => spans_pure ?_
    subst hj hi
    exact .declare hvalue
  · refine spans_after (spans_expect (by decide) _) ?_
    refine spans_look (spans_ite (fun _ => ?_) fun _ => ?_)
    · refine spans_ite (fun _ => spans_memberWrite hg (by rw [hi])) fun _ => spans_fail (by omega)
    · refine spans_bind (hg.expression _) fun k value _ hvalue => spans_pure ?_
      subst hi
      exact .declare hvalue

theorem spans_destructuring :
    Spans b (s + 1) (destructuring g (b.token s)) fun j st => Occupies b.place (.stmt st) s j := by
  refine spans_bind spans_destructure fun j pattern _ hj => ?_
  refine spans_after (spans_expectWord _ _) ?_
  refine spans_bind (hg.expression (j + 1)) fun k value _ hvalue => spans_locate (spans_pure ?_)
  subst hj
  exact .destructure hvalue

theorem spans_functionDeclaration (exported : Bool) (hi : i = s + exportLead exported) :
    Spans b i (functionDeclaration g (exporting b s exported))
      fun j st => Occupies b.place (.stmt st) s j := by
  refine spans_after (spans_expectWord _ _) (spans_after (spans_expect (by decide) _)
    (spans_after (spans_expect (by decide) _) ?_))
  refine spans_bind (spans_params hg _) fun l found _ hfound => ?_
  obtain ⟨k, hk, hl⟩ := hfound
  refine spans_bind (spans_functionBody hg) fun n body _ hbody => ?_
  obtain ⟨m, hm, rfl⟩ := hbody
  rw [exporting_getD exported hi, exporting_isSome]
  refine spans_locate (spans_locate (spans_pure ?_))
  subst hi
  exact .declareFunction (.function (by omega) hk hl hm)

/-! ### Control flow -/

/-- What a row of conditionals reads is a conditional, so that it may stand after `else`. -/
theorem spans_conditionalFrom {start depth : Nat} :
    Spans b (s + 1) (conditionalFrom g start bound depth (b.token s))
      fun j st => Occupies b.place (.stmt st) s j ∧ st.isConditional = true := by
  induction bound generalizing s depth with
  | zero => exact spans_exhausted
  | succ bound ih =>
    refine spans_enter (spans_bind (hg.expression (s + 1)) fun j test _ htest => ?_)
    refine spans_bind (spans_block hg) fun k yes _ hyes => spans_locate ?_
    -- Every way to end makes the same statement, over another part for `else`.
    have hcond {no : Else} {l : Nat} (hno : Occupies b.place (.otherwise no) k l) :
        Occupies b.place (.stmt (.cond (b.place s) test yes no)) s l ∧
          (Stmt.cond (b.place s) test yes no).isConditional = true :=
      ⟨.cond htest hyes hno, rfl⟩
    refine spans_eatWord ?_ ?_ "else"
    · refine spans_look (spans_ite (fun hif => ?_) fun _ => ?_)
      · refine spans_advance (kind_of_isKeyword hif) (spans_bind ih fun l next _ hnext => ?_)
        exact spans_pure (hcond (.elseIf hnext.2 hnext.1))
      · refine spans_bind (spans_block hg) fun l no _ hno => spans_bind (spans_closing _) ?_
        rintro _ _ - rfl
        exact spans_pure (hcond (.block hno))
    · refine spans_bind (spans_closing _) ?_
      rintro _ _ - rfl
      exact spans_pure (hcond .nothing)

theorem spans_conditional :
    Spans b (s + 1) (conditional g (b.token s)) fun j st => Occupies b.place (.stmt st) s j :=
  spans_look ((spans_conditionalFrom hg).mono fun _ _ _ h => h.1)

theorem spans_guarded :
    Spans b (s + 1) (guarded g (b.token s)) fun j st => Occupies b.place (.stmt st) s j := by
  refine spans_bind (hg.expression (s + 1)) fun j test _ htest => ?_
  refine spans_after (spans_expectWord _ _) (spans_bind (spans_block hg) fun k no _ hno => ?_)
  exact spans_closed _ (.guard htest hno)

theorem spans_whileLoop :
    Spans b (s + 1) (whileLoop g (b.token s)) fun j st => Occupies b.place (.stmt st) s j := by
  refine spans_bind (hg.expression (s + 1)) fun j test _ htest => ?_
  exact spans_bind (spans_block hg) fun k body _ hbody => spans_closed _ (.whileLoop htest hbody)

theorem spans_endlessLoop :
    Spans b (s + 1) (endlessLoop g (b.token s)) fun j st => Occupies b.place (.stmt st) s j :=
  spans_bind (spans_block hg) fun _ _ _ hbody => spans_closed _ (.loop hbody)

theorem spans_forLoop :
    Spans b (s + 1) (forLoop g (b.token s)) fun j st => Occupies b.place (.stmt st) s j := by
  refine spans_after (spans_expectName _) (spans_after (spans_expectWord _ _) ?_)
  refine spans_bind (hg.expression (s + 3)) fun j iterable _ hiterable => ?_
  exact spans_bind (spans_block hg) fun k body _ hbody => spans_closed _ (.forEach hiterable hbody)

theorem spans_attempt :
    Spans b (s + 1) (attempt g (b.token s)) fun j st => Occupies b.place (.stmt st) s j := by
  refine spans_bind (spans_block hg) fun j body _ hbody => spans_locate ?_
  refine spans_eatWord ?_ ?_ "catch"
  · refine spans_bind spans_jumpLabel fun k name _ hk => ?_
    refine spans_bind (spans_block hg) fun l handler _ hhandler => spans_bind (spans_closing _) ?_
    rintro _ _ - rfl
    subst hk
    exact spans_pure (.attemptCatch hbody hhandler)
  · refine spans_bind (spans_closing _) ?_
    rintro _ _ - rfl
    exact spans_pure (.attempt hbody)

theorem spans_giveBack :
    Spans b (s + 1) (giveBack g (b.token s)) fun j st => Occupies b.place (.stmt st) s j := by
  refine spans_look (spans_ite (fun _ => spans_locate (spans_pure .giveBackNothing)) fun _ => ?_)
  exact spans_bind (hg.expression (s + 1)) fun j value _ hvalue =>
    spans_locate (spans_pure (.giveBack hvalue))

theorem spans_patternCase :
    Spans b (s + 1) (patternCase g (b.token s)) fun j c => Occupies b.place (.case c) s j := by
  refine spans_bind spans_pattern fun j pattern _ hj => ?_
  have hrest (guard : Option Expr) {k : Nat}
      (hcase : ∀ {l : Nat} {body : List Stmt}, Occupies b.place (.stmts body) (k + 1) l →
        Occupies b.place (.case (.mk (some pattern) guard body (b.place s))) s l) :
      Spans b k (do
        let _ ← expect .colon
          ⟨"SYN083", "Expected a colon (:) after the pattern in a match clause."⟩
        let body ← block g
        return Case.mk (some pattern) guard body (← locate (b.token s)))
        fun j c => Occupies b.place (.case c) s j := by
    refine spans_after (spans_expect (by decide) _) ?_
    exact spans_bind (spans_block hg) fun l body _ hbody => spans_locate (spans_pure (hcase hbody))
  refine spans_eatWord ?_ (spans_with (hrest none (.patternCase (by omega)))) "when"
  exact spans_bind (hg.expression (j + 1)) fun k guard _ hguard =>
    spans_with (hrest (some guard) (.guardCase (by omega) hguard))

theorem spans_defaultCase :
    Spans b (s + 1) (defaultCase g (b.token s)) fun j c => Occupies b.place (.case c) s j := by
  refine spans_after (spans_expect (by decide) _) ?_
  exact spans_bind (spans_block hg) fun j body _ hbody =>
    spans_locate (spans_pure (.defaultCase hbody))

theorem spans_cases :
    Spans b i (cases g bound) fun j cs => Occupies b.place (.cases cs) i j := by
  induction bound generalizing i with
  | zero => exact spans_exhausted
  | succ bound ih =>
    -- A case of either kind is followed by the other cases in the same way.
    have hmore {word : String} (hword : (b.token i).isKeyword word = true) {x : Parser Case}
        (hx : Spans b (i + 1) x fun j c => Occupies b.place (.case c) i j) :
        Spans b i (do
          let _ ← advance
          let c ← x
          return c :: (← cases g bound)) fun j cs => Occupies b.place (.cases cs) i j := by
      refine spans_advance (kind_of_isKeyword hword) (spans_bind hx fun j c _ hc => ?_)
      exact spans_bind ih fun k cs _ hcs => spans_pure (.cases hc hcs)
    refine spans_current (spans_ite (fun hword => ?_) fun _ =>
      spans_ite (fun hword => ?_) fun _ => spans_pure .noCases)
    · exact hmore hword (spans_patternCase hg)
    · exact hmore hword (spans_defaultCase hg)

theorem spans_choose :
    Spans b (s + 1) (choose g (b.token s)) fun j st => Occupies b.place (.stmt st) s j := by
  refine spans_bind (hg.expression (s + 1)) fun j value _ hvalue => ?_
  refine spans_bind (spans_cases hg) fun k cs _ hcs => ?_
  refine spans_ite (fun _ => spans_fail (by omega)) fun hempty => ?_
  exact spans_closed _ (.choose (by simpa using hempty) hvalue hcs)

/-! ### Calls and modules -/

theorem spans_callStatement :
    Spans b (s + 1) (callStatement g (b.token s)) fun j st => Occupies b.place (.stmt st) s j := by
  refine spans_bind (spans_callParts hg) fun j ⟨target, args⟩ _ hfound => ?_
  obtain ⟨hnamed, k, l, hcallee, hargs, rfl⟩ := hfound
  have hmade (dest : Option String) :
      Occupies b.place (.stmt (.call (b.place s) target args dest)) s
        (l + 1 + 2 * dest.toList.length) := .callStatement hnamed hcallee hargs
  refine spans_eatOperator ?_ ?_ "->"
  · exact spans_after (spans_expect (by decide) _) (spans_locate (spans_pure (hmade (some _))))
  · exact spans_locate (spans_pure (hmade none))

omit hg in
theorem spans_load :
    Spans b (s + 1) (load (b.token s)) fun j st => Occupies b.place (.stmt st) s j := by
  refine spans_look (spans_ite (fun hstring => ?_) fun _ => ?_)
  · have hkind : (b.token (s + 1)).kind = .string := by simpa [Cursor.check] using hstring
    refine spans_advance (by simp [hkind]) (spans_after (spans_expectWord _ _) ?_)
    exact spans_after (spans_expect (by decide) _) (spans_locate (spans_pure (.load (.inl rfl))))
  · refine spans_after (spans_expect (by decide) _) (spans_after (spans_expectWord _ _)
      (spans_after (spans_expect (by decide) _) ?_))
    refine spans_eatWord ?_ ?_ "as"
    · exact spans_after (spans_expect (by decide) _) (spans_locate (spans_pure (.load (.inr rfl))))
    · exact spans_locate (spans_pure (.load (.inl rfl)))

theorem spans_exported :
    Spans b (s + 1) (exported g (b.token s)) fun j st => Occupies b.place (.stmt st) s j := by
  refine spans_look (spans_ite (fun _ => spans_fail (Nat.le_succ s)) fun _ => spans_look ?_)
  split
  case h_5 => exact spans_functionDeclaration hg true rfl
  case h_6 => exact spans_failHere
  case h_7 => exact spans_failHere
  all_goals exact spans_declaration hg true rfl

/-! ### Statements -/

theorem spans_expressionStatement :
    Spans b i (expressionStatement g) fun j st => Occupies b.place (.stmt st) i j :=
  spans_bind (hg.expression i) fun _ _ _ hvalue => spans_pure (.exprStatement hvalue)

omit hg in
/-- A jump with the label that may stand after it. -/
theorem spans_jump {f : Location → Option String → Stmt}
    (hf : ∀ label, Occupies b.place (.stmt (f (b.place s) label)) s (s + 1 + label.toList.length)) :
    Spans b (s + 1) (do
      let label ← jumpLabel
      return f (← locate (b.token s)) label) fun j st => Occupies b.place (.stmt st) s j := by
  refine spans_bind spans_jumpLabel ?_
  rintro _ label - rfl
  exact spans_locate (spans_pure (hf label))

/-- A statement that is made of one expression. -/
theorem spans_ofValue {f : Location → Expr → Stmt}
    (hf : ∀ {e j}, Occupies b.place (.expr e) (s + 1) j →
      Occupies b.place (.stmt (f (b.place s) e)) s j) :
    Spans b (s + 1) (do
      let value ← g.expression
      return f (← locate (b.token s)) value) fun j st => Occupies b.place (.stmt st) s j :=
  spans_bind (hg.expression (s + 1)) fun _ _ _ hvalue => spans_locate (spans_pure (hf hvalue))

theorem spans_wordStatement (hk : (b.token i).kind ≠ .eof) :
    Spans b i (wordStatement g (b.token i)) fun j st => Occupies b.place (.stmt st) i j := by
  -- Most words are taken here, and the rest of the statement is read after them.
  have hword {x : Parser Stmt}
      (hx : Spans b (i + 1) x fun j st => Occupies b.place (.stmt st) i j) :
      Spans b i (do let _ ← advance; x) fun j st => Occupies b.place (.stmt st) i j :=
    spans_advance hk hx
  unfold wordStatement
  split
  -- A declaration reads its own word, and some words begin an expression.
  case h_1 | h_2 | h_3 | h_4 => exact spans_declaration hg false rfl
  case h_5 => exact spans_functionDeclaration hg false rfl
  case h_6 | h_7 | h_8 | h_9 => exact spans_expressionStatement hg
  case h_10 => exact hword (spans_destructuring hg)
  case h_11 => exact hword (spans_conditional hg)
  case h_12 => exact hword (spans_guarded hg)
  case h_13 => exact hword (spans_forLoop hg)
  case h_14 => exact hword (spans_whileLoop hg)
  case h_15 => exact hword (spans_endlessLoop hg)
  case h_16 => exact hword (spans_jump fun _ => .breakTo)
  case h_17 => exact hword (spans_jump fun _ => .continueTo)
  case h_18 => exact hword (spans_attempt hg)
  case h_19 => exact hword (spans_callStatement hg)
  case h_20 => exact hword (spans_giveBack hg)
  case h_21 => exact hword (spans_ofValue hg .print)
  case h_22 => exact hword (spans_ofValue hg .raise)
  case h_23 => exact hword (spans_choose hg)
  case h_24 => exact hword spans_load
  case h_25 => exact hword (spans_exported hg)
  case h_26 => exact spans_fail (Nat.le_refl i)

theorem spans_statementWith :
    Spans b i (statementWith g) fun j st => Occupies b.place (.stmt st) i j := by
  refine spans_current (spans_ite (fun _ => spans_fail (Nat.le_refl i)) fun hk => ?_)
  refine spans_ite (fun _ => spans_wordStatement hg hk) fun _ => ?_
  refine spans_look (spans_ite (fun hname => ?_) fun _ => spans_expressionStatement hg)
  -- The colon behind the label has been seen before the label is taken.
  have hcolon : (b.token (i + 1)).kind = .colon := hname.2
  refine spans_advance hk (spans_advance (by simp [hcolon]) ?_)
  exact spans_bind (hg.statement (i + 2)) fun j body _ hbody =>
    spans_locate (spans_pure (.labeled hbody))

omit hg in
/-- **The grammar lays constructs down** in the tokens, at every depth. -/
theorem lays_ofBound (n : Nat) : Lays b (Grammar.ofBound n) := by
  induction n with
  | zero => exact ⟨fun _ => spans_exhausted, fun _ => spans_exhausted⟩
  | succ n ih => exact ⟨fun _ => spans_expressionWith ih, fun _ => spans_statementWith ih⟩

end ScriptLang.Grammar

namespace ScriptLang.Program

open ScriptLang.Parser Construct

variable {b : Input} {i : Nat} {bound : Nat} {g : Grammar}

theorem spans_body (hg : g.Lays b) :
    Spans b i (body g bound) fun j ss => Occupies b.place (.stmts ss) i j := by
  induction bound generalizing i with
  | zero => exact spans_exhausted
  | succ bound ih =>
    refine spans_look (spans_ite (fun _ => spans_pure .noStmts) fun _ => ?_)
    refine spans_bind (hg.statement i) fun j s _ hs => ?_
    exact spans_bind ih fun k ss _ hss => spans_pure (.stmts hs hss)

/-- A program has the location of its first token. -/
theorem spans_program (hg : g.Lays b) :
    Spans b i (parser g) fun j p =>
      p.location = b.place i ∧ Occupies b.place (.stmts p.statements) i j := by
  refine spans_current (spans_locate ?_)
  exact spans_bind (spans_body hg) fun j ss _ hss => spans_pure ⟨rfl, hss⟩

section

variable {platform : Platform} {tokens : List Token} {file : String}

/-- How reading a list of tokens may end. -/
theorem lands_parse (h : parse platform tokens file ≠ .error .overflow) :
    Lands (Input.ofTokens platform tokens file) 0 (fun j p =>
      p.location = (Cursor.ofTokens platform tokens file).place 0 ∧
        Occupies (Cursor.ofTokens platform tokens file).place (.stmts p.statements) 0 j)
      (parse platform tokens file) := by
  rw [parse_of_not_overflows (not_overflows_of_parse h)]
  exact spans_program (b := Input.ofTokens platform tokens file) (Grammar.lays_ofBound _)
    (Nat.zero_le _)

/-- A program that is read is made of the tokens up to the first `eof` token. -/
theorem occupies_parse {p : Program} {c : Cursor}
    (h : parse platform tokens file = .ok (p, c)) :
    p.location = (Cursor.ofTokens platform tokens file).place 0 ∧
      Occupies (Cursor.ofTokens platform tokens file).place (.stmts p.statements) 0
        (Cursor.ofTokens platform tokens file).stop := by
  have hstop := (position_of_parse h).2
  have hlands := lands_parse (by rw [h]; nofun)
  rw [h] at hlands
  obtain ⟨j, -, -, rfl, hlocation, hbody⟩ := hlands
  exact ⟨hlocation, hstop ▸ hbody⟩

/-- A fault is at a token that has been consumed or that the cursor is on. -/
theorem place_of_parse {fault : GrammarFault} {t : Token} {consumed : Ghost Nat}
    (h : parse platform tokens file = .error (.fault fault t consumed)) :
    consumed.val ≤ (Cursor.ofTokens platform tokens file).stop ∧
      ∃ n ≤ consumed.val, (Cursor.ofTokens platform tokens file).tokens[n]? = some t := by
  have hlands := lands_parse (by rw [h]; nofun)
  rw [h] at hlands
  exact hlands.2

end

end ScriptLang.Program
