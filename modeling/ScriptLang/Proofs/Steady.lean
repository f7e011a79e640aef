import ScriptLang.Grammar.Program

/-!
# Parsers move forward

A parser may look at the tokens, move the cursor forward and stop; it changes neither the tokens nor
the platform.

* `Cursor.Leads` relates two cursors of one list of tokens of which the second is not before the
  first.
* `Parser.Steady` says of a parser that it leads from its cursor to a later one, if it succeeds.

Over a grammar whose two parsers are steady (`Grammar.Steady`), so are all others, up to
`Grammar.steady_expressionWith` and `Grammar.steady_statementWith`, and with them the grammar that
programs are read with, at every depth (`Grammar.steady_ofBound`).

The rules for putting parsers together are given to `grind`, which follows a parser through its
steps.
-/

namespace ScriptLang

/-- The second cursor is in the same tokens, at the same place or later. -/
structure Cursor.Leads (c c' : Cursor) : Prop where
  platform : c'.platform = c.platform
  tokens : c'.tokens = c.tokens
  last : c'.last = c.last
  position : c.position ≤ c'.position

namespace Cursor

@[refl] theorem Leads.refl (c : Cursor) : c.Leads c := ⟨rfl, rfl, rfl, Nat.le_refl _⟩

theorem Leads.trans {c₁ c₂ c₃ : Cursor} (h : c₁.Leads c₂) (h' : c₂.Leads c₃) : c₁.Leads c₃ :=
  ⟨h'.platform.trans h.platform, h'.tokens.trans h.tokens, h'.last.trans h.last,
    Nat.le_trans h.position h'.position⟩

theorem leads_advance (c : Cursor) : c.Leads c.advance :=
  ⟨c.advance_platform, c.advance_tokens, c.advance_last, c.position_le_advance⟩

end Cursor

namespace Parser

variable {α β : Type}

/-- If the parser succeeds, the cursor is not before the one that it started from. -/
structure Steady (x : Parser α) : Prop where
  leads : ∀ {c a c'}, x c = .ok (a, c') → c.Leads c'

/-- One parser after the other succeeds if both do. -/
theorem exists_ok_of_bind {x : Parser α} {f : α → Parser β} {c c' : Cursor} {b : β}
    (h : (x >>= f) c = .ok (b, c')) : ∃ a c₁, x c = .ok (a, c₁) ∧ f a c₁ = .ok (b, c') := by
  change Except.bind (x c) (fun r => f r.1 r.2) = _ at h
  cases e : x c with
  | error stop => rw [e] at h; cases h
  | ok r =>
    obtain ⟨a, c₁⟩ := r
    rw [e] at h
    exact ⟨a, c₁, rfl, h⟩

theorem bind_of_ok {x : Parser α} {f : α → Parser β} {c c' : Cursor} {a : α}
    (h : x c = .ok (a, c')) : (x >>= f) c = f a c' := by
  change Except.bind (x c) (fun r => f r.1 r.2) = _
  rw [h]
  rfl

theorem bind_of_error {x : Parser α} {f : α → Parser β} {c : Cursor} {stop : Stop}
    (h : x c = .error stop) : (x >>= f) c = .error stop := by
  change Except.bind (x c) (fun r => f r.1 r.2) = _
  rw [h]
  rfl

/-- Whether a call that nothing guards is made depends on the platform alone. -/
theorem enter_apply (start depth : Nat) (c : Cursor) : enter start depth c =
    if c.platform.fits start depth then .ok ((), c) else .error .outOfStack := by
  change (if c.platform.fits start depth = true then _ else _ : Parser Unit) c = _
  split <;> rfl

/-! ### Rules -/

@[grind ←] theorem steady_pure (a : α) : Steady (pure a : Parser α) := by
  refine ⟨fun h => ?_⟩
  cases h
  exact .refl _

@[grind ←] theorem steady_bind {x : Parser α} {f : α → Parser β} (hx : Steady x)
    (hf : ∀ a, Steady (f a)) : Steady (x >>= f) := by
  refine ⟨fun h => ?_⟩
  obtain ⟨a, c₁, h₁, h₂⟩ := exists_ok_of_bind h
  exact (hx.leads h₁).trans ((hf a).leads h₂)

@[grind ←] theorem steady_map {f : α → β} {x : Parser α} (hx : Steady x) : Steady (f <$> x) :=
  steady_bind hx fun a => steady_pure (f a)

@[grind ←] theorem steady_fail (fault : GrammarFault) (t : Token) :
    Steady (fail fault t : Parser α) := ⟨fun h => by cases h⟩

@[grind ←] theorem steady_exhausted : Steady (exhausted : Parser α) := ⟨fun h => by cases h⟩

@[grind ←] theorem steady_look (f : Cursor → α) : Steady (look f) := by
  refine ⟨fun h => ?_⟩
  cases h
  exact .refl _

@[grind ←] theorem steady_current : Steady current := steady_look _

@[grind ←] theorem steady_locate (t : Token) : Steady (locate t) := steady_pure _

@[grind ←] theorem steady_enter (start depth : Nat) : Steady (enter start depth) := by
  refine ⟨fun h => ?_⟩
  rw [enter_apply] at h
  split at h
  · cases h
    exact .refl _
  · cases h

@[grind ←] theorem steady_advance : Steady advance := by
  refine ⟨fun h => ?_⟩
  cases h
  exact Cursor.leads_advance _

@[grind ←] theorem steady_failHere (fault : GrammarFault) : Steady (failHere fault : Parser α) := by
  unfold failHere
  grind

@[grind ←] theorem steady_eatIf (test : Cursor → Bool) : Steady (eatIf test) := by
  unfold eatIf
  grind

@[grind ←] theorem steady_eat (kind : TokenKind) : Steady (eat kind) := steady_eatIf _

@[grind ←] theorem steady_eatWord (word : String) : Steady (eatWord word) := steady_eatIf _

@[grind ←] theorem steady_eatOperator (symbol : String) : Steady (eatOperator symbol) :=
  steady_eatIf _

@[grind ←] theorem steady_expect (kind : TokenKind) (clause : Clause) :
    Steady (expect kind clause) := by
  unfold expect
  grind

@[grind ←] theorem steady_expectText (kind : TokenKind) (text : String) (clause : Clause) :
    Steady (expectText kind text clause) := by
  unfold expectText
  grind

@[grind ←] theorem steady_expectWords (words : List String) (clause : Clause) :
    Steady (expectWords words clause) := by
  unfold expectWords
  grind

@[grind ←] theorem steady_expectWord (word : String) (clause : Clause) :
    Steady (expectWord word clause) := steady_expectWords _ _

@[grind ←] theorem steady_expectName (clause : Clause) : Steady (expectName clause) := by
  unfold expectName
  grind

end Parser

end ScriptLang

namespace ScriptLang.Grammar

open ScriptLang.Parser

/-- The two parsers of the grammar are steady. -/
structure Steady (g : Grammar) : Prop where
  expression : g.expression.Steady
  statement : g.statement.Steady

attribute [grind →] Steady.expression Steady.statement

/-! ### Patterns -/

@[grind ←] theorem steady_names (clause : Clause) (bound : Nat) : (names clause bound).Steady := by
  induction bound with
  | zero => exact steady_exhausted
  | succ bound ih =>
    unfold names
    grind

@[grind ←] theorem steady_namesUpTo (bound : Nat) (close : TokenKind) (clause : Clause) :
    (namesUpTo bound close clause).Steady := by
  unfold namesUpTo
  grind

@[grind ←] theorem steady_destructure (bound : Nat) : (destructure bound).Steady := by
  unfold destructure
  grind

theorem steady_patterns (start bound : Nat) :
    (∀ close depth, (patternWith start close bound depth).Steady) ∧
      ∀ depth, (patterns start bound depth).Steady := by
  -- Patterns and lists of patterns call each other, one step deeper each time.
  induction bound with
  | zero => exact ⟨fun _ _ => steady_exhausted, fun _ => steady_exhausted⟩
  | succ bound ih =>
    obtain ⟨hpattern, hpatterns⟩ := ih
    refine ⟨fun close depth => ?_, fun depth => ?_⟩
    · unfold patternWith
      grind
    · unfold patterns
      grind

@[grind ←] theorem steady_pattern (bound : Nat) : (pattern bound).Steady :=
  steady_bind (steady_look _) fun start => (steady_patterns start bound).1 _ _

variable {g : Grammar} (hg : g.Steady)
include hg

/-! ### Blocks, arguments and functions -/

@[grind ←] theorem steady_statements (bound : Nat) : (statements g bound).Steady := by
  induction bound with
  | zero => exact steady_exhausted
  | succ bound ih =>
    unfold statements
    grind

@[grind ←] theorem steady_block : (block g).Steady := steady_statements hg _

@[grind ←] theorem steady_element : (element g).Steady := by
  unfold element
  grind

@[grind ←] theorem steady_elements (bound : Nat) : (elements g bound).Steady := by
  induction bound with
  | zero => exact steady_exhausted
  | succ bound ih =>
    unfold elements
    grind

@[grind ←] theorem steady_arguments : (arguments g).Steady := by
  unfold arguments
  grind

omit hg in
@[grind ←] theorem steady_restParam (style : ParamStyle) : (restParam style).Steady := by
  unfold restParam
  grind

@[grind ←] theorem steady_paramDefault (defaulted : Bool) (name : Token) :
    (paramDefault g defaulted name).Steady := by
  unfold paramDefault
  grind

omit hg in
@[grind ←] theorem steady_moreParams (style : ParamStyle) : (moreParams style).Steady := by
  unfold moreParams
  grind

@[grind ←] theorem steady_paramsFrom (style : ParamStyle) (bound : Nat) (defaulted : Bool) :
    (paramsFrom g style bound defaulted).Steady := by
  induction bound generalizing defaulted with
  | zero => exact steady_exhausted
  | succ bound ih =>
    unfold paramsFrom
    grind

@[grind ←] theorem steady_params (style : ParamStyle) : (params g style).Steady := by
  unfold params
  grind

@[grind ←] theorem steady_functionBody : (functionBody g).Steady := by
  unfold functionBody
  grind

@[grind ←] theorem steady_anonymous (start : Token) : (anonymous g start).Steady := by
  unfold anonymous
  grind

omit hg in
@[grind ←] theorem steady_callee (first : Token) (member : Clause) :
    (callee first member).Steady := by
  unfold callee
  grind

@[grind ←] theorem steady_callParts : (callParts g).Steady := by
  unfold callParts
  grind

/-! ### Containers and templates -/

@[grind ←] theorem steady_moreItems (bound : Nat) : (moreItems g bound).Steady := by
  induction bound with
  | zero => exact steady_exhausted
  | succ bound ih =>
    unfold moreItems
    grind

@[grind ←] theorem steady_arrayLiteral (start : Token) : (arrayLiteral g start).Steady := by
  unfold arrayLiteral
  grind

@[grind ←] theorem steady_entry (first : Bool) : (entry g first).Steady := by
  unfold entry
  grind

@[grind ←] theorem steady_moreEntries (bound : Nat) : (moreEntries g bound).Steady := by
  induction bound with
  | zero => exact steady_exhausted
  | succ bound ih =>
    unfold moreEntries
    grind

@[grind ←] theorem steady_objectLiteral (start : Token) : (objectLiteral g start).Steady := by
  unfold objectLiteral
  grind

@[grind ←] theorem steady_parts (bound : Nat) : (parts g bound).Steady := by
  induction bound with
  | zero => exact steady_exhausted
  | succ bound ih =>
    unfold parts
    grind

@[grind ←] theorem steady_templateLiteral (start : Token) : (templateLiteral g start).Steady := by
  unfold templateLiteral
  grind

/-! ### Primaries, members, operators and pipes -/

@[grind ←] theorem steady_wordAtom (t : Token) : (wordAtom g t).Steady := by
  unfold wordAtom
  grind

@[grind ←] theorem steady_atom : (atom g).Steady := by
  unfold atom
  grind

@[grind ←] theorem steady_dotMember (dot : Token) (base : Expr) :
    (dotMember g dot base).Steady := by
  unfold dotMember
  grind

@[grind ←] theorem steady_bracketMember (start : Token) (base : Expr) (clause : Clause) :
    (bracketMember g start base clause).Steady := by
  unfold bracketMember
  grind

@[grind ←] theorem steady_members (bound : Nat) (base : Expr) : (members g bound base).Steady := by
  induction bound generalizing base with
  | zero => exact steady_exhausted
  | succ bound ih =>
    unfold members
    grind

@[grind ←] theorem steady_primary : (primary g).Steady := by
  unfold primary
  grind

@[grind ←] theorem steady_operation (t : Token) : (operation g t).Steady := by
  unfold operation
  grind

@[grind ←] theorem steady_operand : (operand g).Steady := by
  unfold operand
  grind

@[grind ←] theorem steady_choiceCallee (start : Token) : (choiceCallee g start).Steady := by
  unfold choiceCallee
  grind

@[grind ←] theorem steady_pipeCallee : (pipeCallee g).Steady := by
  unfold pipeCallee
  grind

@[grind ←] theorem steady_pipes (bound : Nat) (value : Expr) : (pipes g bound value).Steady := by
  induction bound generalizing value with
  | zero => exact steady_exhausted
  | succ bound ih =>
    unfold pipes
    grind

/-- **Expressions.** Reading one moves the cursor forward. -/
@[grind ←] theorem steady_expressionWith : (expressionWith g).Steady := by
  unfold expressionWith
  grind

/-! ### Parts of statements -/

omit hg in
@[grind ←] theorem steady_closing (clause : Clause) : (closing clause).Steady := by
  unfold closing
  grind

@[grind ←] theorem steady_writeTarget (bound : Nat) (base : Expr) :
    (writeTarget g bound base).Steady := by
  induction bound generalizing base with
  | zero => exact steady_exhausted
  | succ bound ih =>
    -- A dot, a bracket, or the end of what is written to.
    refine steady_bind steady_current fun t => ?_
    split
    · grind
    · grind

omit hg in
@[grind ←] theorem steady_jumpLabel : jumpLabel.Steady := by
  unfold jumpLabel
  grind

/-! ### Statements -/

@[grind ←] theorem steady_memberWrite (loc : Location) (name : Token) :
    (memberWrite g loc name).Steady := by
  unfold memberWrite
  grind

@[grind ←] theorem steady_declaration (exporting : Option Token) :
    (declaration g exporting).Steady := by
  unfold declaration
  grind

@[grind ←] theorem steady_destructuring (t : Token) : (destructuring g t).Steady := by
  unfold destructuring
  grind

@[grind ←] theorem steady_functionDeclaration (exporting : Option Token) :
    (functionDeclaration g exporting).Steady := by
  unfold functionDeclaration
  grind

@[grind ←] theorem steady_conditionalFrom (start bound depth : Nat) (t : Token) :
    (conditionalFrom g start bound depth t).Steady := by
  induction bound generalizing depth t with
  | zero => exact steady_exhausted
  | succ bound ih =>
    refine steady_bind (steady_enter ..) fun _ => steady_bind hg.expression fun test => ?_
    grind

@[grind ←] theorem steady_conditional (t : Token) : (conditional g t).Steady := by
  unfold conditional
  grind

@[grind ←] theorem steady_guarded (t : Token) : (guarded g t).Steady := by
  unfold guarded
  grind

@[grind ←] theorem steady_whileLoop (t : Token) : (whileLoop g t).Steady := by
  unfold whileLoop
  grind

@[grind ←] theorem steady_endlessLoop (t : Token) : (endlessLoop g t).Steady := by
  unfold endlessLoop
  grind

@[grind ←] theorem steady_forLoop (t : Token) : (forLoop g t).Steady := by
  unfold forLoop
  grind

@[grind ←] theorem steady_attempt (t : Token) : (attempt g t).Steady := by
  unfold attempt
  grind

@[grind ←] theorem steady_giveBack (t : Token) : (giveBack g t).Steady := by
  unfold giveBack
  grind

@[grind ←] theorem steady_patternCase (t : Token) : (patternCase g t).Steady := by
  unfold patternCase
  grind

@[grind ←] theorem steady_defaultCase (t : Token) : (defaultCase g t).Steady := by
  unfold defaultCase
  grind

@[grind ←] theorem steady_cases (bound : Nat) : (cases g bound).Steady := by
  induction bound with
  | zero => exact steady_exhausted
  | succ bound ih =>
    unfold cases
    grind

@[grind ←] theorem steady_choose (t : Token) : (choose g t).Steady := by
  unfold choose
  grind

@[grind ←] theorem steady_callStatement (t : Token) : (callStatement g t).Steady := by
  unfold callStatement
  grind

omit hg in
@[grind ←] theorem steady_load (t : Token) : (load t).Steady := by
  unfold load
  grind

@[grind ←] theorem steady_exported (t : Token) : (exported g t).Steady := by
  unfold exported
  grind

@[grind ←] theorem steady_expressionStatement : (expressionStatement g).Steady := by
  unfold expressionStatement
  grind

@[grind ←] theorem steady_wordStatement (t : Token) : (wordStatement g t).Steady := by
  unfold wordStatement
  split
  all_goals grind

/-- **Statements.** Reading one moves the cursor forward. -/
theorem steady_statementWith : (statementWith g).Steady := by
  unfold statementWith
  grind

omit hg in
/-- **The grammar** moves cursors forward at every depth. -/
theorem steady_ofBound (n : Nat) : (Grammar.ofBound n).Steady := by
  induction n with
  | zero => exact ⟨steady_exhausted, steady_exhausted⟩
  | succ n ih => exact ⟨steady_expressionWith ih, steady_statementWith ih⟩

end ScriptLang.Grammar
