import Mathlib.Logic.Basic
import ScriptLang.Proofs.Concurs

/-!
# Two runs of the rules for patterns, functions and expressions

Each rule of the grammar concurs with itself on two lists of tokens that differ in layout only, if
the expressions and the statements do that it is built from (`Grammar.Concurs`). Where a rule goes
on from a token or a tree that was read before, the two runs have twins there, or trees that are
equal but for their places.
-/

open ScriptLang.Parser

namespace ScriptLang.Grammar

variable {L : Relayout} {g : Grammar} {bound : Nat}

/-- Two runs of the expressions and of the statements end alike. -/
structure Concurs (g : Grammar) (L : Relayout) : Prop where
  expression : Parser.Concurs L g.expression g.expression (Agree Expr.placeless)
  statement : Parser.Concurs L g.statement g.statement (Agree Stmt.placeless)

/-! ### Patterns -/

theorem concurs_names (clause : Clause) :
    Parser.Concurs L (names clause bound) (names clause bound) Eq := by
  induction bound with
  | zero => exact concurs_exhausted
  | succ bound ih =>
    refine concurs_bind (concurs_expectName clause) fun t t' ht => ?_
    have hvalue := ht.value
    refine concurs_eat ?_ (concurs_pure ?_) .comma
    · refine concurs_bind ih fun ns ns' hns => concurs_pure ?_
      rw [hvalue, hns]
    · rw [hvalue]

theorem concurs_namesUpTo (close : TokenKind) (clause : Clause) :
    Parser.Concurs L (namesUpTo bound close clause) (namesUpTo bound close clause) Eq :=
  concurs_look (fun _ _ h => h.check close) fun _ =>
    concurs_ite (concurs_pure rfl) (concurs_names clause)

theorem concurs_destructure :
    Parser.Concurs L (destructure bound) (destructure bound) Eq := by
  refine concurs_bind concurs_current fun t t' ht => ?_
  obtain ⟨span, line, column, file, rfl⟩ := ht.exists_eq
  refine concurs_ite ?_ (concurs_ite ?_ (concurs_fail (.refl _) ht))
  · refine concurs_bind concurs_advance fun _ _ _ => ?_
    refine concurs_bind (concurs_namesUpTo _ _) fun ns ns' hns => ?_
    exact concurs_bind (concurs_expect _ _) fun _ _ _ => concurs_pure (congrArg _ hns)
  · refine concurs_bind concurs_advance fun _ _ _ => ?_
    refine concurs_bind (concurs_namesUpTo _ _) fun ns ns' hns => ?_
    exact concurs_bind (concurs_expect _ _) fun _ _ _ => concurs_pure (congrArg _ hns)

/-- A token that is a result by itself. -/
theorem concurs_taken {α : Type} {a a' : α} {p : α → α → Prop} (h : p a a') :
    Parser.Concurs L (do let _ ← advance; return a) (do let _ ← advance; return a') p :=
  concurs_bind concurs_advance fun _ _ _ => concurs_pure h

/-- Patterns contain lists of patterns, at a smaller depth, so both are shown at once. -/
theorem concurs_patternWith_patterns (start : Nat) :
    (∀ close depth, Parser.Concurs L (patternWith start close bound depth)
      (patternWith start close bound depth) Eq) ∧
    ∀ depth, Parser.Concurs L (patterns start bound depth) (patterns start bound depth) Eq := by
  induction bound with
  | zero => exact ⟨fun _ _ => concurs_exhausted, fun _ => concurs_exhausted⟩
  | succ bound ih =>
    obtain ⟨ihOne, ihMany⟩ := ih
    refine ⟨fun close depth => ?_, fun depth => ?_⟩
    · refine concurs_bind (concurs_enter _ _) fun _ _ _ => ?_
      -- Twins differ in their place only, so both readings take the same branch.
      refine concurs_bind concurs_current fun t t' ht => ?_
      obtain ⟨span, line, column, file, rfl⟩ := ht.exists_eq
      dsimp only
      split
      case h_1 =>
        -- An array of patterns, which may be empty.
        have hclose (ps : List Pattern) : Parser.Concurs L
            (do let _ ← expect .rightBracket close; return Pattern.array ps)
            (do let _ ← expect .rightBracket close; return Pattern.array ps) Eq :=
          concurs_bind (concurs_expect _ _) fun _ _ _ => concurs_pure rfl
        refine concurs_bind concurs_advance fun _ _ _ => ?_
        refine concurs_look (fun _ _ h => h.check _) fun _ => concurs_ite ?_ ?_
        · exact concurs_with (hclose [])
        · refine concurs_bind (ihMany _) fun ps ps' hps => ?_
          obtain rfl := hps
          exact hclose ps
      case h_2 =>
        -- A number, if its text is one.
        refine concurs_bind concurs_advance fun _ _ _ => ?_
        split
        · exact concurs_pure rfl
        · exact concurs_fail (.refl _) ht
      case h_3 => exact concurs_taken rfl
      case h_4 => exact concurs_taken rfl
      case h_5 => exact concurs_taken rfl
      case h_6 => exact concurs_taken rfl
      case h_7 => exact concurs_fail (.refl _) ht
      case h_8 => exact concurs_fail ⟨rfl, rfl, rfl⟩ ht
    · refine concurs_bind (ihOne innerClose _) fun p p' hp => ?_
      obtain rfl := hp
      refine concurs_eat ?_ (concurs_pure rfl) .comma
      exact concurs_bind (ihMany _) fun ps ps' hps => concurs_pure (congrArg _ hps)

theorem concurs_pattern : Parser.Concurs L (pattern bound) (pattern bound) Eq :=
  concurs_look (fun _ _ h => h.position.symm) fun start =>
    (concurs_patternWith_patterns start).1 outerClose 0

/-! ### Blocks and argument lists -/

theorem concurs_statements (hg : g.Concurs L) :
    Parser.Concurs L (statements g bound) (statements g bound) (Agree placelessStmts) := by
  induction bound with
  | zero => exact concurs_exhausted
  | succ bound ih =>
    refine concurs_look (fun _ _ h => h.endsBlock) fun _ => concurs_ite (concurs_pure rfl) ?_
    refine concurs_bind hg.statement fun s s' hs => ?_
    refine concurs_bind ih fun ss ss' hss => concurs_pure ?_
    show s.placeless :: placelessStmts ss = s'.placeless :: placelessStmts ss'
    rw [hs, hss]

section Rules

variable (hg : g.Concurs L)
include hg

theorem concurs_block : Parser.Concurs L (block g) (block g) (Agree placelessStmts) :=
  concurs_statements hg

theorem concurs_element :
    Parser.Concurs L (element g) (element g) (Agree Element.placeless) := by
  refine concurs_eat ?_ ?_ .spread
  · exact concurs_bind hg.expression fun e e' he => concurs_pure (congrArg Element.spread he)
  · exact concurs_bind hg.expression fun e e' he => concurs_pure (congrArg Element.item he)

omit hg in
/-- An element before others. -/
theorem agree_elements {e e' : Element} {es es' : List Element} (he : Agree Element.placeless e e')
    (hes : Agree placelessElements es es') : Agree placelessElements (e :: es) (e' :: es') :=
  congrArg₂ List.cons he hes

theorem concurs_elements :
    Parser.Concurs L (elements g bound) (elements g bound) (Agree placelessElements) := by
  induction bound with
  | zero => exact concurs_exhausted
  | succ bound ih =>
    refine concurs_bind (concurs_element hg) fun e e' he => ?_
    refine concurs_eat ?_ (concurs_pure (agree_elements he rfl)) .comma
    exact concurs_bind ih fun es es' hes => concurs_pure (agree_elements he hes)

theorem concurs_arguments :
    Parser.Concurs L (arguments g) (arguments g) (Agree placelessElements) :=
  concurs_look (fun _ _ h => h.check _) fun _ =>
    concurs_ite (concurs_pure rfl) (concurs_elements hg)

/-! ### Functions -/

omit hg in
theorem concurs_restParam (style : ParamStyle) :
    Parser.Concurs L (restParam style) (restParam style) Eq := by
  refine concurs_bind (concurs_expect _ _) fun t t' ht => ?_
  have hvalue : t.value = t'.value := ht.value.symm
  refine concurs_look (fun _ _ h => h.check _) fun _ => concurs_ite ?_ ?_
  · exact concurs_fail (.refl _) ht
  · refine concurs_ite ?_ (concurs_with (concurs_pure hvalue))
    exact concurs_bind (concurs_eatIf fun _ _ h => h.checkOperator _) fun _ _ _ =>
      concurs_pure hvalue

theorem concurs_paramDefault (defaulted : Bool) {t t' : Token} (ht : L.Twins t t') :
    Parser.Concurs L (paramDefault g defaulted t) (paramDefault g defaulted t')
      (Agree placelessExpr?) := by
  refine concurs_eat ?_ ?_ .colon
  · exact concurs_bind hg.expression fun e e' he => concurs_pure (congrArg some he)
  · exact concurs_ite (concurs_fail (.refl _) ht) (concurs_pure rfl)

omit hg in
theorem concurs_moreParams (style : ParamStyle) :
    Parser.Concurs L (moreParams style) (moreParams style) Eq := by
  cases style with
  | parenthesized => exact concurs_eatIf fun _ _ h => h.check _
  | arrow =>
    refine concurs_eatOperator (concurs_pure rfl) ?_ "->"
    refine concurs_look (fun _ _ h => h.check _) fun _ => ?_
    exact concurs_ite (concurs_failHere _) (concurs_pure rfl)

/-- The parameters agree, and the rest parameters are the same. -/
def ParamsAgree (ps ps' : Params) : Prop :=
  Agree placelessParams ps.params ps'.params ∧ ps.rest = ps'.rest

omit hg in
/-- Whether there is a default does not depend on places. -/
theorem isSome_of_agree {e e' : Option Expr} (h : Agree placelessExpr? e e') :
    e.isSome = e'.isSome := by
  cases e <;> cases e' <;> first | rfl | cases h

theorem concurs_paramsFrom (style : ParamStyle) (defaulted : Bool) :
    Parser.Concurs L (paramsFrom g style bound defaulted) (paramsFrom g style bound defaulted)
      ParamsAgree := by
  induction bound generalizing defaulted with
  | zero => exact concurs_exhausted
  | succ bound ih =>
    refine concurs_eat ?_ ?_ .spread
    · exact concurs_bind (concurs_restParam style) fun n n' hn =>
        concurs_pure ⟨rfl, congrArg some hn⟩
    · refine concurs_bind (concurs_expectName _) fun t t' ht => ?_
      refine concurs_bind (concurs_paramDefault hg defaulted ht) fun e e' he => ?_
      have hparam : Agree Param.placeless (.mk t.value e) (.mk t'.value e') :=
        congrArg₂ Param.mk ht.value.symm he
      refine concurs_bind (concurs_moreParams style) fun b b' hb => ?_
      obtain rfl := hb
      rw [isSome_of_agree he]
      refine concurs_ite ?_ (concurs_pure ⟨congrArg₂ List.cons hparam rfl, rfl⟩)
      exact concurs_bind (ih _) fun ps ps' hps =>
        concurs_pure ⟨congrArg₂ List.cons hparam hps.1, hps.2⟩

theorem concurs_params (style : ParamStyle) :
    Parser.Concurs L (params g style) (params g style) ParamsAgree := by
  -- The closing mark comes after the parameters, whether or not there are any.
  have hend (ps ps' : Params) (hps : ParamsAgree ps ps') : Parser.Concurs L
      (if style = .parenthesized then do
        if ← look fun c => ps.rest.isSome && !c.check .rightParen then failHere .afterRest
        else
          let _ ← expect .rightParen
            ⟨"SYN026", "Expected a closing parenthesis for function parameters."⟩
          return ps
      else return ps)
      (if style = .parenthesized then do
        if ← look fun c => ps'.rest.isSome && !c.check .rightParen then failHere .afterRest
        else
          let _ ← expect .rightParen
            ⟨"SYN026", "Expected a closing parenthesis for function parameters."⟩
          return ps'
      else return ps') ParamsAgree := by
    rw [← hps.2]
    refine concurs_ite ?_ (concurs_pure hps)
    refine concurs_look (fun _ _ h => by rw [h.check]) fun _ => ?_
    refine concurs_ite (concurs_failHere _) ?_
    exact concurs_bind (concurs_expect _ _) fun _ _ _ => concurs_pure hps
  have hopen (closed : Bool) : Parser.Concurs L
      (do
        let found ← if closed then pure ⟨[], none⟩ else paramsFrom g style g.bound false
        if style = .parenthesized then
          if ← look fun c => found.rest.isSome && !c.check .rightParen then failHere .afterRest
          else
            let _ ← expect .rightParen
              ⟨"SYN026", "Expected a closing parenthesis for function parameters."⟩
            return found
        else return found)
      (do
        let found ← if closed then pure ⟨[], none⟩ else paramsFrom g style g.bound false
        if style = .parenthesized then
          if ← look fun c => found.rest.isSome && !c.check .rightParen then failHere .afterRest
          else
            let _ ← expect .rightParen
              ⟨"SYN026", "Expected a closing parenthesis for function parameters."⟩
            return found
        else return found) ParamsAgree := by
    refine concurs_ite ?_ ?_
    · exact concurs_with (hend _ _ ⟨rfl, rfl⟩)
    · exact concurs_bind (concurs_paramsFrom hg style false) hend
  cases style with
  | parenthesized => exact concurs_look (fun _ _ h => h.check _) hopen
  | arrow =>
    refine concurs_bind (concurs_eatIf fun _ _ h => h.checkOperator _) fun b b' hb => ?_
    obtain rfl := hb
    exact hopen b

theorem concurs_functionBody :
    Parser.Concurs L (functionBody g) (functionBody g) (Agree placelessStmts) :=
  concurs_bind (concurs_block hg) fun _ _ hss =>
    concurs_bind (concurs_expectText _ _ _) fun _ _ _ => concurs_pure hss

omit hg in
/-- Functions with parameters and bodies that agree. -/
theorem agree_function {name : Option String} {ps ps' : Params} {ss ss' : List Stmt}
    {loc loc' : Location} (hps : ParamsAgree ps ps') (hss : Agree placelessStmts ss ss') :
    Agree FunctionDef.placeless (.mk name ps.params ps.rest ss loc)
      (.mk name ps'.params ps'.rest ss' loc') := by
  simp only [Agree, FunctionDef.placeless]
  rw [hps.1, hps.2, hss]

theorem concurs_anonymous {t t' : Token} (ht : L.Twins t t') :
    Parser.Concurs L (anonymous g t) (anonymous g t') (Agree Expr.placeless) := by
  -- Parameters and a body come after either way to begin.
  have hrest (style : ParamStyle) : Parser.Concurs L
      (do
        let found ← params g style
        let body ← functionBody g
        let loc ← locate t
        return Expr.function loc (.mk none found.params found.rest body loc))
      (do
        let found ← params g style
        let body ← functionBody g
        let loc ← locate t'
        return Expr.function loc (.mk none found.params found.rest body loc))
      (Agree Expr.placeless) := by
    refine concurs_bind (concurs_params hg style) fun ps ps' hps => ?_
    refine concurs_bind (concurs_functionBody hg) fun ss ss' hss => ?_
    refine concurs_bind concurs_locate fun _ _ _ => concurs_pure ?_
    exact congrArg (Expr.function default) (agree_function hps hss)
  unfold anonymous
  rw [ht.value]
  refine concurs_ite ?_ ?_
  · exact concurs_with (hrest .arrow)
  · refine concurs_bind (concurs_expect _ _) fun _ _ _ => ?_
    exact concurs_with (hrest .parenthesized)

omit hg in
theorem concurs_callee {t t' : Token} (ht : L.Twins t t') (member : Clause) :
    Parser.Concurs L (callee t member) (callee t' member) (Agree Expr.placeless) := by
  have hvalue : t.value = t'.value := ht.value.symm
  refine concurs_bind concurs_locate fun loc loc' _ => ?_
  refine concurs_eatOperator ?_ (concurs_pure ?_) "."
  · refine concurs_bind (concurs_expect _ _) fun n n' hn => concurs_pure ?_
    exact congrArg₂ (Expr.member default) hvalue hn.value.symm
  · exact congrArg (Expr.ident default) hvalue

/-- A callee with its arguments. -/
def CallsAgree (call call' : Expr × List Element) : Prop :=
  Agree Expr.placeless call.1 call'.1 ∧ Agree placelessElements call.2 call'.2

/-- Arguments and their closing parenthesis. -/
theorem concurs_argumentsTo {β : Type} {f f' : List Element → β} {q : β → β → Prop}
    (clause : Clause) (hf : ∀ es es', Agree placelessElements es es' → q (f es) (f' es')) :
    Parser.Concurs L
      (do
        let args ← arguments g
        let _ ← expect .rightParen clause
        return f args)
      (do
        let args ← arguments g
        let _ ← expect .rightParen clause
        return f' args) q :=
  concurs_bind (concurs_arguments hg) fun es es' hes =>
    concurs_bind (concurs_expect _ _) fun _ _ _ => concurs_pure (hf es es' hes)

theorem concurs_callParts : Parser.Concurs L (callParts g) (callParts g) CallsAgree := by
  refine concurs_bind (concurs_expect _ _) fun t t' ht => ?_
  refine concurs_bind (concurs_callee ht _) fun target target' htarget => ?_
  refine concurs_bind (concurs_expect _ _) fun _ _ _ => ?_
  exact concurs_argumentsTo hg _ fun es es' hes => ⟨htarget, hes⟩

/-! ### Containers and templates -/

theorem concurs_moreItems :
    Parser.Concurs L (moreItems g bound) (moreItems g bound) (Agree placelessElements) := by
  induction bound with
  | zero => exact concurs_exhausted
  | succ bound ih =>
    refine concurs_eat (concurs_look (fun _ _ h => h.check _) fun _ => ?_) ?_ .comma
    · refine concurs_ite (concurs_pure rfl) ?_
      refine concurs_bind (concurs_element hg) fun e e' he => ?_
      exact concurs_bind ih fun es es' hes => concurs_pure (agree_elements he hes)
    · exact concurs_pure rfl

omit hg in
/-- What closes a literal, after which its location is taken from the token that opened it. -/
theorem concurs_closed {kind : TokenKind} {clause : Clause} {t t' : Token}
    {f f' : Location → Expr} (hf : ∀ loc loc', Agree Expr.placeless (f loc) (f' loc')) :
    Parser.Concurs L
      (do
        let _ ← expect kind clause
        return f (← locate t))
      (do
        let _ ← expect kind clause
        return f' (← locate t')) (Agree Expr.placeless) :=
  concurs_bind (concurs_expect _ _) fun _ _ _ =>
    concurs_bind concurs_locate fun loc loc' _ => concurs_pure (hf loc loc')

theorem concurs_arrayLiteral (t t' : Token) :
    Parser.Concurs L (arrayLiteral g t) (arrayLiteral g t') (Agree Expr.placeless) := by
  refine concurs_look (fun _ _ h => h.check _) fun _ => concurs_ite ?_ ?_
  · exact concurs_with (concurs_closed fun _ _ => rfl)
  · refine concurs_bind (concurs_element hg) fun e e' he => ?_
    refine concurs_bind (concurs_moreItems hg) fun es es' hes => concurs_with ?_
    exact concurs_closed fun _ _ => congrArg (Expr.array default) (agree_elements he hes)

theorem concurs_entry (first : Bool) :
    Parser.Concurs L (entry g first) (entry g first) (Agree Entry.placeless) := by
  refine concurs_eat ?_ ?_ .spread
  · exact concurs_bind hg.expression fun e e' he => concurs_pure (congrArg Entry.spread he)
  · refine concurs_bind (concurs_expect _ _) fun key key' hkey => ?_
    refine concurs_bind (concurs_expect _ _) fun _ _ _ => ?_
    exact concurs_bind hg.expression fun e e' he =>
      concurs_pure (congrArg₂ Entry.property hkey.value.symm he)

omit hg in
/-- An entry before others. -/
theorem agree_entries {e e' : Entry} {es es' : List Entry} (he : Agree Entry.placeless e e')
    (hes : Agree placelessEntries es es') : Agree placelessEntries (e :: es) (e' :: es') :=
  congrArg₂ List.cons he hes

theorem concurs_moreEntries :
    Parser.Concurs L (moreEntries g bound) (moreEntries g bound) (Agree placelessEntries) := by
  induction bound with
  | zero => exact concurs_exhausted
  | succ bound ih =>
    refine concurs_eat (concurs_look (fun _ _ h => h.check _) fun _ => ?_) ?_ .comma
    · refine concurs_ite (concurs_pure rfl) ?_
      refine concurs_bind (concurs_entry hg false) fun e e' he => ?_
      exact concurs_bind ih fun es es' hes => concurs_pure (agree_entries he hes)
    · exact concurs_pure rfl

theorem concurs_objectLiteral (t t' : Token) :
    Parser.Concurs L (objectLiteral g t) (objectLiteral g t') (Agree Expr.placeless) := by
  refine concurs_look (fun _ _ h => h.check _) fun _ => concurs_ite ?_ ?_
  · exact concurs_with (concurs_closed fun _ _ => rfl)
  · refine concurs_bind (concurs_entry hg true) fun e e' he => ?_
    refine concurs_bind (concurs_moreEntries hg) fun es es' hes => concurs_with ?_
    exact concurs_closed fun _ _ => congrArg (Expr.object default) (agree_entries he hes)

theorem concurs_parts :
    Parser.Concurs L (parts g bound) (parts g bound) (Agree placelessParts) := by
  induction bound with
  | zero => exact concurs_exhausted
  | succ bound ih =>
    refine concurs_bind concurs_current fun t t' ht => ?_
    obtain ⟨span, line, column, file, rfl⟩ := ht.exists_eq
    dsimp only
    split
    case h_1 => exact concurs_pure rfl
    case h_2 => exact concurs_pure rfl
    case h_3 =>
      -- A fragment of text is left out if it is empty, and twins have the same text.
      refine concurs_bind concurs_advance fun _ _ _ => ?_
      refine concurs_bind ih fun ps ps' hps => concurs_pure ?_
      split
      · exact hps
      · exact congrArg (List.cons (Part.text t.value)) hps
    case h_4 =>
      refine concurs_bind concurs_advance fun _ _ _ => ?_
      refine concurs_bind hg.expression fun e e' he => ?_
      refine concurs_bind (concurs_expect _ _) fun _ _ _ => ?_
      refine concurs_bind ih fun ps ps' hps => concurs_pure ?_
      exact congrArg₂ List.cons (congrArg Part.expr he) hps
    case h_5 => exact concurs_fail (.refl _) ht

theorem concurs_templateLiteral (t t' : Token) :
    Parser.Concurs L (templateLiteral g t) (templateLiteral g t') (Agree Expr.placeless) :=
  concurs_bind (concurs_parts hg) fun _ _ hps =>
    concurs_closed fun _ _ => congrArg (Expr.template default) hps

/-! ### Primaries and their members -/

omit hg in
/-- A token that is an expression by itself. -/
theorem concurs_literal {t t' : Token} {f : Location → Expr}
    (hf : ∀ loc loc', Agree Expr.placeless (f loc) (f loc')) :
    Parser.Concurs L
      (do
        let _ ← advance
        return f (← locate t))
      (do
        let _ ← advance
        return f (← locate t')) (Agree Expr.placeless) :=
  concurs_bind concurs_advance fun _ _ _ =>
    concurs_bind concurs_locate fun loc loc' _ => concurs_pure (hf loc loc')

omit hg in
/-- Calls whose callees and arguments agree. -/
theorem agree_call {call call' : Expr × List Element} {safe : Bool} {loc loc' : Location}
    (h : CallsAgree call call') :
    Agree Expr.placeless (.call loc call.1 call.2 safe) (.call loc' call'.1 call'.2 safe) := by
  simp only [Agree, Expr.placeless]
  rw [h.1, h.2]

theorem concurs_wordAtom {t t' : Token} (ht : L.Twins t t') :
    Parser.Concurs L (wordAtom g t) (wordAtom g t') (Agree Expr.placeless) := by
  unfold wordAtom
  rw [ht.value]
  refine concurs_ite ?_ (concurs_ite ?_ (concurs_fail (.refl _) ht))
  · exact concurs_bind concurs_advance fun _ _ _ => concurs_anonymous hg ht
  · refine concurs_bind concurs_advance fun _ _ _ => ?_
    refine concurs_bind (concurs_callParts hg) fun call call' hcall => ?_
    exact concurs_bind concurs_locate fun _ _ _ => concurs_pure (agree_call hcall)

theorem concurs_atom : Parser.Concurs L (atom g) (atom g) (Agree Expr.placeless) := by
  refine concurs_bind concurs_current fun t t' ht => ?_
  obtain ⟨span, line, column, file, rfl⟩ := ht.exists_eq
  dsimp only
  split
  case h_1 => exact concurs_literal fun _ _ => rfl
  case h_2 =>
    refine concurs_bind concurs_advance fun _ _ _ => ?_
    split
    · exact concurs_bind concurs_locate fun _ _ _ => concurs_pure rfl
    · exact concurs_fail (.refl _) ht
  case h_3 => exact concurs_literal fun _ _ => rfl
  case h_4 => exact concurs_literal fun _ _ => rfl
  case h_5 => exact concurs_literal fun _ _ => rfl
  case h_6 => exact concurs_bind concurs_advance fun _ _ _ => concurs_templateLiteral hg _ _
  case h_7 => exact concurs_bind concurs_advance fun _ _ _ => concurs_arrayLiteral hg _ _
  case h_8 => exact concurs_bind concurs_advance fun _ _ _ => concurs_objectLiteral hg _ _
  case h_9 =>
    refine concurs_bind concurs_advance fun _ _ _ => ?_
    refine concurs_bind hg.expression fun inner inner' hinner => ?_
    exact concurs_bind (concurs_expect _ _) fun _ _ _ => concurs_pure hinner
  case h_10 => exact concurs_wordAtom hg ht
  case h_11 => exact concurs_fail (.refl _) ht
  case h_12 => exact concurs_fail (.refl _) ht

section Members

variable {base base' : Expr} (hbase : Agree Expr.placeless base base')
include hbase

omit hg in
/-- Members by key. -/
theorem agree_index {key key' : Expr} {safe : Bool} {loc loc' : Location}
    (hkey : Agree Expr.placeless key key') :
    Agree Expr.placeless (.index loc base key safe) (.index loc' base' key' safe) := by
  simp only [Agree, Expr.placeless]
  rw [hbase, hkey]

omit hg in
/-- Members by name. -/
theorem agree_property {name name' : String} {safe : Bool} {loc loc' : Location}
    (hname : name = name') :
    Agree Expr.placeless (.property loc base name safe) (.property loc' base' name' safe) := by
  simp only [Agree, Expr.placeless]
  rw [hbase, hname]

theorem concurs_bracketMember (t t' : Token) (clause : Clause) :
    Parser.Concurs L (bracketMember g t base clause) (bracketMember g t' base' clause)
      (Agree Expr.placeless) :=
  concurs_bind hg.expression fun _ _ hkey =>
    concurs_closed fun _ _ => agree_index hbase hkey

theorem concurs_dotMember {t t' : Token} (ht : L.Twins t t') :
    Parser.Concurs L (dotMember g t base) (dotMember g t' base') (Agree Expr.placeless) := by
  unfold dotMember
  rw [ht.value]
  have hcheck (safe : Bool) (kind : TokenKind) (c c' : Cursor) (h : L.Abreast c c') :
      (safe && c.check kind) = (safe && c'.check kind) := by rw [h.check]
  refine concurs_eatThen ?_ (concurs_eatThen ?_ ?_ (hcheck _ _)) (hcheck _ _)
  · refine concurs_bind hg.expression fun key key' hkey => ?_
    exact concurs_closed fun _ _ => agree_index hbase hkey
  · refine concurs_bind (concurs_arguments hg) fun es es' hes => ?_
    have hcall : CallsAgree (base, es) (base', es') := ⟨hbase, hes⟩
    exact concurs_closed fun _ _ => agree_call hcall
  · refine concurs_bind (concurs_expect _ _) fun name name' hname => ?_
    refine concurs_bind concurs_locate fun _ _ _ => concurs_pure ?_
    exact agree_property hbase hname.value.symm

theorem concurs_members :
    Parser.Concurs L (members g bound base) (members g bound base') (Agree Expr.placeless) := by
  induction bound generalizing base base' with
  | zero => exact concurs_exhausted
  | succ bound ih =>
    refine concurs_bind concurs_current fun t t' ht => ?_
    obtain ⟨span, line, column, file, rfl⟩ := ht.exists_eq
    refine concurs_ite ?_ (concurs_ite ?_ (concurs_pure hbase))
    · refine concurs_bind concurs_advance fun _ _ _ => ?_
      exact concurs_bind (concurs_dotMember hg hbase ht) fun _ _ hnext => ih hnext
    · refine concurs_bind concurs_advance fun _ _ _ => ?_
      exact concurs_bind (concurs_bracketMember hg hbase _ _ _) fun _ _ hnext => ih hnext

end Members

theorem concurs_primary : Parser.Concurs L (primary g) (primary g) (Agree Expr.placeless) :=
  concurs_bind (concurs_atom hg) fun _ _ hbase => concurs_members hg hbase

/-! ### Operators and pipes -/

theorem concurs_operation {t t' : Token} (ht : L.Twins t t') :
    Parser.Concurs L (operation g t) (operation g t') (Agree Expr.placeless) := by
  unfold operation
  rw [ht.value]
  refine concurs_ite ?_ ?_
  · refine concurs_bind hg.expression fun e e' he => ?_
    exact concurs_bind concurs_locate fun _ _ _ =>
      concurs_pure (congrArg (Expr.unary default .not) he)
  · split
    · exact concurs_fail (.refl _) ht
    case h_2 op _ =>
      refine concurs_bind hg.expression fun left left' hleft => ?_
      refine concurs_look (fun _ _ h => h.endsExpression) fun _ => concurs_ite ?_ ?_
      · -- With one operand the operator can only be the minus.
        refine concurs_ite ?_ (concurs_fail (.refl _) ht)
        exact concurs_bind concurs_locate fun _ _ _ =>
          concurs_pure (congrArg (Expr.unary default .neg) hleft)
      · refine concurs_bind hg.expression fun right right' hright => ?_
        exact concurs_bind concurs_locate fun _ _ _ =>
          concurs_pure (congrArg₂ (Expr.binary default op) hleft hright)

theorem concurs_operand : Parser.Concurs L (operand g) (operand g) (Agree Expr.placeless) := by
  refine concurs_bind concurs_current fun t t' ht => ?_
  have hoperation : isOperation t' = isOperation t := by
    simp only [isOperation, ht.kind, ht.value]
  rw [hoperation]
  refine concurs_ite ?_ (concurs_primary hg)
  exact concurs_bind concurs_advance fun _ _ _ => concurs_operation hg ht

theorem concurs_choiceCallee (t t' : Token) :
    Parser.Concurs L (choiceCallee g t) (choiceCallee g t') (Agree Expr.placeless) := by
  refine concurs_bind hg.expression fun cond cond' hcond => ?_
  refine concurs_bind (concurs_expectWord _ _) fun _ _ _ => ?_
  refine concurs_bind hg.expression fun yes yes' hyes => ?_
  refine concurs_bind (concurs_expectWord _ _) fun _ _ _ => ?_
  refine concurs_bind hg.expression fun no no' hno => ?_
  refine concurs_bind concurs_locate fun _ _ _ => concurs_pure ?_
  show Expr.inlineIf default _ _ _ = Expr.inlineIf default _ _ _
  rw [hcond, hyes, hno]

theorem concurs_pipeCallee : Parser.Concurs L (pipeCallee g) (pipeCallee g) CallsAgree := by
  refine concurs_bind concurs_current fun t t' ht => ?_
  obtain ⟨span, line, column, file, rfl⟩ := ht.exists_eq
  refine concurs_ite ?_ ?_
  · refine concurs_bind concurs_advance fun _ _ _ => ?_
    exact concurs_bind (concurs_choiceCallee hg _ _) fun _ _ he => concurs_pure ⟨he, rfl⟩
  · refine concurs_bind (concurs_expect _ _) fun first first' hfirst => ?_
    refine concurs_bind (concurs_callee hfirst _) fun target target' htarget => ?_
    refine concurs_eat ?_ (concurs_pure ⟨htarget, rfl⟩) .leftParen
    exact concurs_argumentsTo hg _ fun es es' hes => ⟨htarget, hes⟩

theorem concurs_pipes {value value' : Expr} (hvalue : Agree Expr.placeless value value') :
    Parser.Concurs L (pipes g bound value) (pipes g bound value') (Agree Expr.placeless) := by
  induction bound generalizing value value' with
  | zero => exact concurs_exhausted
  | succ bound ih =>
    refine concurs_bind concurs_current fun t t' ht => ?_
    obtain ⟨span, line, column, file, rfl⟩ := ht.exists_eq
    refine concurs_ite ?_ (concurs_pure hvalue)
    refine concurs_bind concurs_advance fun _ _ _ => ?_
    refine concurs_bind (concurs_pipeCallee hg) fun call call' hcall => ?_
    refine concurs_bind concurs_locate fun loc loc' _ => ih ?_
    show Expr.pipe default _ _ _ = Expr.pipe default _ _ _
    rw [hvalue, hcall.1, hcall.2]

theorem concurs_expressionWith :
    Parser.Concurs L (expressionWith g) (expressionWith g) (Agree Expr.placeless) :=
  concurs_bind (concurs_operand hg) fun _ _ hvalue => concurs_pipes hg hvalue

end Rules

end ScriptLang.Grammar
