import ScriptLang.Proofs.Rendering
import ScriptLang.Proofs.Steady

/-!
# Parsed expressions can be rendered

An expression that the parser can build has a rendering, unless a function literal is in it
(`Expr.exists_renders`). Not every tree has one: a member of a module stands only as a callee, a
choice only as the callee of a pipe without arguments, and the texts of a template are not empty.

`Renderable` is the property that the parsers of expressions share. The first part builds renderings
from those of the parts; the second follows the rules of the grammar with `Parser.Makes`, which says
that whatever a parser makes has a property.
-/

namespace ScriptLang

/-- There is a rendering, if there is no function literal. -/
def Renderable (e : Expr) : Prop := e.FunctionFree → ∃ ts, Renders (.expr e) ts

/-- There are tokens for a callee. -/
def IsCallee (e : Expr) : Prop := ∃ cs, RendersCallee e cs

/-- A part of a template: a text that is not empty or an expression with a rendering. -/
def Part.Renderable : Part → Prop
  | .text s => s ≠ ""
  | .expr e => ScriptLang.Renderable e

/-! ### Renderings from renderings of parts -/

namespace Renderable

/-- A token of a kind and text, anywhere. -/
def word (kind : TokenKind) (value : String) : Token := ⟨kind, value, .nowhere, 0, 0, ""⟩

/-- The token of an operator. -/
def operatorWord (op : BinaryOp) : Token :=
  word (if op = .and ∨ op = .or then .keyword else .operator) op.symbol

theorem operatorWord_spec (op : BinaryOp) : Grammar.isOperation (operatorWord op) ∧
    BinaryOp.ofSymbol? (operatorWord op).value = some op :=
  ⟨by cases op <;> decide, op.ofSymbol?_symbol⟩

theorem exists_encloses (bare : Bool) (ts : List Token) : ∃ us, Encloses bare ts us := by
  cases bare
  · exact ⟨word .leftParen "(" :: (ts ++ [word .rightParen ")"]), .wrapped rfl rfl⟩
  · exact ⟨ts, .bare⟩

/-- Tokens for an operand, or for a base. -/
theorem enclosed {e : Expr} (h : Renderable e) (hf : e.FunctionFree) (bare : Bool) :
    ∃ ts ts', Renders (.expr e) ts ∧ Encloses bare ts ts' := by
  obtain ⟨ts, ht⟩ := h hf
  obtain ⟨ts', ht'⟩ := exists_encloses bare ts
  exact ⟨ts, ts', ht, ht'⟩

variable {loc loc' : Location} {e base left right callee cond yes no : Expr}

theorem ident (name : String) : Renderable (.ident loc name) := fun _ =>
  ⟨[word .identifier name], .ident (t := word .identifier name) rfl⟩

theorem literal {t : Token} {value : Literal} (h : t.literal? = some value) :
    Renderable (.literal loc value) := fun _ => ⟨[t], .literal h⟩

theorem binary (op : BinaryOp) (hl : Renderable left) (hr : Renderable right) :
    Renderable (.binary loc op left right) := by
  intro hf
  obtain ⟨ls, ls', hls, hwl⟩ := hl.enclosed (hf.part (by simp [Expr.parts])) left.isBare
  obtain ⟨rs, rs', hrs, hwr⟩ := hr.enclosed (hf.part (by simp [Expr.parts])) right.isBare
  exact ⟨_, .binary (operatorWord_spec op).1 (operatorWord_spec op).2 hls hwl hrs hwr⟩

theorem unary (op : UnaryOp) (h : Renderable e) : Renderable (.unary loc op e) := by
  intro hf
  obtain ⟨ts, ts', hts, hw⟩ := h.enclosed (hf.part (by simp [Expr.parts])) e.isBare
  cases op with
  | neg => exact ⟨word .operator "-" :: ts', .neg (by decide) hts hw⟩
  | not => exact ⟨word .keyword "not" :: ts', .not (by decide) hts hw⟩

theorem function (fn : FunctionDef) : Renderable (.function loc fn) := by
  intro hf
  cases hf with
  | intro hfn _ => exact absurd rfl (hfn loc fn)

/-! #### Lists -/

theorem element {item : Element} (h : Renderable item.value) (hf : item.value.FunctionFree) :
    ∃ ts, Renders (.element item) ts := by
  obtain ⟨ts, ht⟩ := h hf
  cases item with
  | item e => exact ⟨ts, .item ht⟩
  | spread e => exact ⟨word .spread "..." :: ts, .spread rfl ht⟩

theorem elements {items : List Element} (h : ∀ item ∈ items, Renderable item.value)
    (hf : ∀ item ∈ items, item.value.FunctionFree) : ∃ ts, Renders (.elements items) ts := by
  induction items with
  | nil => exact ⟨[], .noElements⟩
  | cons item rest ih =>
    obtain ⟨ts, ht⟩ := element (h item (by simp)) (hf item (by simp))
    obtain ⟨us, hu⟩ := ih (fun a ha => h a (by simp [ha])) fun a ha => hf a (by simp [ha])
    cases rest with
    | nil => exact ⟨ts, .lastElement ht⟩
    | cons next rest => exact ⟨ts ++ word .comma "," :: us, .moreElements ht rfl hu⟩

theorem entry {item : Entry} (h : Renderable item.value) (hf : item.value.FunctionFree) :
    ∃ ts, Renders (.entry item) ts := by
  obtain ⟨ts, ht⟩ := h hf
  cases item with
  | property key e =>
    have h : Renders (.entry (.property (word .identifier key).value e))
        (word .identifier key :: word .colon ":" :: ts) := .keyed rfl rfl ht
    exact ⟨_, h⟩
  | spread e => exact ⟨word .spread "..." :: ts, .merged rfl ht⟩

theorem entries {items : List Entry} (h : ∀ item ∈ items, Renderable item.value)
    (hf : ∀ item ∈ items, item.value.FunctionFree) : ∃ ts, Renders (.entries items) ts := by
  induction items with
  | nil => exact ⟨[], .noEntries⟩
  | cons item rest ih =>
    obtain ⟨ts, ht⟩ := entry (h item (by simp)) (hf item (by simp))
    obtain ⟨us, hu⟩ := ih (fun a ha => h a (by simp [ha])) fun a ha => hf a (by simp [ha])
    cases rest with
    | nil => exact ⟨ts, .lastEntry ht⟩
    | cons next rest => exact ⟨ts ++ word .comma "," :: us, .moreEntries ht rfl hu⟩

theorem templateParts {ps : List Part} (h : ∀ p ∈ ps, p.Renderable)
    (hf : ∀ e ∈ ps.filterMap Part.value?, e.FunctionFree) : ∃ ts, Renders (.parts ps) ts := by
  induction ps with
  | nil => exact ⟨[], .noParts⟩
  | cons p ps ih =>
    have hp := h p (by simp)
    cases p with
    | text s =>
      obtain ⟨us, hu⟩ := ih (fun q hq => h q (by simp [hq])) hf
      exact ⟨word .fragment s :: us, .text (t := word .fragment s) rfl hp hu⟩
    | expr e =>
      obtain ⟨ts, ht⟩ := hp (hf e (by simp [Part.value?]))
      obtain ⟨us, hu⟩ := ih (fun q hq => h q (by simp [hq])) fun a ha =>
        hf a (by simp only [List.filterMap_cons, Part.value?]; exact List.mem_cons_of_mem _ ha)
      exact ⟨word .interpolationStart "$\x7b" :: (ts ++ word .interpolationEnd "\x7d" :: us),
        .interpolation rfl ht rfl hu⟩

/-! #### Containers, members and calls -/

theorem array {items : List Element} (h : ∀ item ∈ items, Renderable item.value) :
    Renderable (.array loc items) := by
  intro hf
  obtain ⟨ts, ht⟩ := elements h fun item hi => hf.part (List.mem_map_of_mem hi)
  exact ⟨word .leftBracket "[" :: (ts ++ [word .rightBracket "]"]), .array rfl rfl ht⟩

theorem object {items : List Entry} (h : ∀ item ∈ items, Renderable item.value) :
    Renderable (.object loc items) := by
  intro hf
  obtain ⟨ts, ht⟩ := entries h fun item hi => hf.part (List.mem_map_of_mem hi)
  exact ⟨word .leftBrace "\x7b" :: (ts ++ [word .rightBrace "\x7d"]), .object rfl rfl ht⟩

theorem template {ps : List Part} (h : ∀ p ∈ ps, p.Renderable) :
    Renderable (.template loc ps) := by
  intro hf
  obtain ⟨ts, ht⟩ := templateParts h fun e he => hf.part he
  exact ⟨word .backtick "`" :: (ts ++ [word .backtick "`"]), .template rfl rfl ht⟩

theorem property (h : Renderable base) (name : String) (safe : Bool) :
    Renderable (.property loc base name safe) := by
  intro hf
  obtain ⟨bs, bs', hb, hw⟩ := h.enclosed (hf.part (by simp [Expr.parts])) base.isSingle
  have hd : (word .operator (if safe then "?." else ".")).isOperator
      (if safe then "?." else ".") := by cases safe <;> decide
  have h : Renders (.expr (.property loc base (word .identifier name).value safe)) _ :=
    .property hb hw hd rfl
  exact ⟨_, h⟩

theorem index {key : Expr} (h : Renderable base) (hk : Renderable key) (safe : Bool) :
    Renderable (.index loc base key safe) := by
  intro hf
  obtain ⟨bs, bs', hb, hw⟩ := h.enclosed (hf.part (by simp [Expr.parts])) base.isSingle
  obtain ⟨ks, hks⟩ := hk (hf.part (by simp [Expr.parts]))
  cases safe with
  | false =>
    exact ⟨bs' ++ word .leftBracket "[" :: (ks ++ [word .rightBracket "]"]),
      .index hb hw rfl hks rfl⟩
  | true =>
    exact ⟨bs' ++ word .operator "?." :: word .leftBracket "[" :: (ks ++ [word .rightBracket "]"]),
      .safeIndex hb hw (by decide) rfl hks rfl⟩

theorem call {args : List Element} (hc : IsCallee callee)
    (ha : ∀ arg ∈ args, Renderable arg.value) : Renderable (.call loc callee args false) := by
  intro hf
  obtain ⟨cs, hcs⟩ := hc
  obtain ⟨ts, ht⟩ := elements ha fun arg hi =>
    hf.part (List.mem_cons_of_mem _ (List.mem_map_of_mem hi))
  exact ⟨word .keyword "call" :: (cs ++ word .leftParen "(" :: (ts ++ [word .rightParen ")"])),
    .call (by decide) hcs rfl ht rfl⟩

theorem safeCall {args : List Element} (h : Renderable base)
    (ha : ∀ arg ∈ args, Renderable arg.value) : Renderable (.call loc base args true) := by
  intro hf
  obtain ⟨bs, bs', hb, hw⟩ := h.enclosed (hf.part (by simp [Expr.parts])) base.isSingle
  obtain ⟨ts, ht⟩ := elements ha fun arg hi =>
    hf.part (List.mem_cons_of_mem _ (List.mem_map_of_mem hi))
  exact ⟨bs' ++ word .operator "?." :: word .leftParen "(" :: (ts ++ [word .rightParen ")"]),
    .safeCall hb hw (by decide) rfl ht rfl⟩

theorem pipe {args : List Element} (h : Renderable base) (hc : IsCallee callee)
    (ha : ∀ arg ∈ args, Renderable arg.value) : Renderable (.pipe loc base callee args) := by
  intro hf
  obtain ⟨bs, bs', hb, hw⟩ := h.enclosed (hf.part (by simp [Expr.parts])) base.isSingle
  obtain ⟨cs, hcs⟩ := hc
  obtain ⟨ts, ht⟩ := elements ha fun arg hi =>
    hf.part (List.mem_cons_of_mem _ (List.mem_cons_of_mem _ (List.mem_map_of_mem hi)))
  exact ⟨bs' ++ word .operator "|>" ::
      (cs ++ word .leftParen "(" :: (ts ++ [word .rightParen ")"])),
    .pipeCall hb hw (by decide) hcs rfl ht rfl⟩

theorem pipeChoice (h : Renderable base) (hc : Renderable cond) (hy : Renderable yes)
    (hn : Renderable no) : Renderable (.pipe loc base (.inlineIf loc' cond yes no) []) := by
  intro hf
  obtain ⟨bs, bs', hb, hw⟩ := h.enclosed (hf.part (by simp [Expr.parts])) base.isSingle
  have hfc : (Expr.inlineIf loc' cond yes no).FunctionFree := hf.part (by simp [Expr.parts])
  obtain ⟨cs, hcs⟩ := hc (hfc.part (by simp [Expr.parts]))
  obtain ⟨ys, hys⟩ := hy (hfc.part (by simp [Expr.parts]))
  obtain ⟨ns, hns⟩ := hn (hfc.part (by simp [Expr.parts]))
  exact ⟨bs' ++ word .operator "|>" :: word .keyword "if" ::
      (cs ++ word .keyword "then" :: (ys ++ word .keyword "else" :: ns)),
    .pipeChoice hb hw (by decide) (by decide) hcs (by decide) hys (by decide) hns⟩

end Renderable

/-! ### The rules of the grammar -/

namespace Parser

variable {α β : Type} {p : α → Prop} {q : β → Prop}

/-- If the parser succeeds, what it makes has the property. -/
structure Makes (p : α → Prop) (x : Parser α) : Prop where
  result : ∀ {c a c'}, x c = .ok (a, c') → p a

theorem makes_pure {a : α} (h : p a) : Makes p (pure a : Parser α) := by
  refine ⟨fun e => ?_⟩
  cases e
  exact h

theorem makes_fail (fault : GrammarFault) (t : Token) : Makes p (fail fault t : Parser α) :=
  ⟨fun e => by cases e⟩

theorem makes_exhausted : Makes p (exhausted : Parser α) := ⟨fun e => by cases e⟩

theorem makes_bind {x : Parser α} {f : α → Parser β} (hx : Makes p x)
    (hf : ∀ a, p a → Makes q (f a)) : Makes q (x >>= f) := by
  refine ⟨fun e => ?_⟩
  obtain ⟨a, c₁, h₁, h₂⟩ := exists_ok_of_bind e
  exact (hf a (hx.result h₁)).result h₂

/-- What comes before may make anything. -/
theorem makes_after {x : Parser α} {f : α → Parser β} (hf : ∀ a, Makes q (f a)) :
    Makes q (x >>= f) :=
  makes_bind (p := fun _ => True) ⟨fun _ => trivial⟩ fun a _ => hf a

end Parser

namespace Grammar

open ScriptLang.Parser

variable {g : Grammar} (hg : g.expression.Makes Renderable)
include hg

theorem renderable_element : (element g).Makes fun item => Renderable item.value := by
  refine makes_after fun spread => ?_
  split
  · exact makes_bind hg fun e he => makes_pure he
  · exact makes_bind hg fun e he => makes_pure he

theorem renderable_elements (bound : Nat) :
    (elements g bound).Makes fun items => ∀ item ∈ items, Renderable item.value := by
  induction bound with
  | zero => exact makes_exhausted
  | succ bound ih =>
    refine makes_bind (renderable_element hg) fun item hi => ?_
    refine makes_after fun more => ?_
    split
    · refine makes_bind ih fun items his => makes_pure ?_
      exact List.forall_mem_cons.mpr ⟨hi, his⟩
    · exact makes_pure (by simpa using hi)

theorem renderable_arguments :
    (arguments g).Makes fun items => ∀ item ∈ items, Renderable item.value := by
  refine makes_after fun none => ?_
  split
  · exact makes_pure (by simp)
  · exact renderable_elements hg _

theorem renderable_moreItems (bound : Nat) :
    (moreItems g bound).Makes fun items => ∀ item ∈ items, Renderable item.value := by
  induction bound with
  | zero => exact makes_exhausted
  | succ bound ih =>
    refine makes_after fun more => ?_
    split
    · refine makes_after fun closed => ?_
      split
      · exact makes_pure (by simp)
      · refine makes_bind (renderable_element hg) fun item hi => ?_
        refine makes_bind ih fun items his => makes_pure ?_
        exact List.forall_mem_cons.mpr ⟨hi, his⟩
    · exact makes_pure (by simp)

theorem renderable_arrayLiteral (start : Token) :
    (arrayLiteral g start).Makes Renderable := by
  have hclose (items : List Element) (hi : ∀ item ∈ items, Renderable item.value) :
      Parser.Makes Renderable (do
        let _ ← expect .rightBracket
          ⟨"SYN012", "Expected a closing square bracket to end an array literal."⟩
        return Expr.array (← locate start) items) :=
    makes_after fun _ => makes_after fun loc =>
      makes_pure (.array hi)
  refine makes_after fun closed => ?_
  split
  · exact makes_bind (p := (· = [])) (makes_pure rfl) fun items hi => hclose items (by simp [hi])
  · refine makes_bind (renderable_element hg) fun item hi => ?_
    refine makes_bind (renderable_moreItems hg _) fun items his => ?_
    refine makes_bind (p := (· = item :: items)) (makes_pure rfl) fun all ha => hclose all ?_
    rw [ha]
    exact List.forall_mem_cons.mpr ⟨hi, his⟩

theorem renderable_entry (first : Bool) :
    (entry g first).Makes fun item => Renderable item.value := by
  refine makes_after fun spread => ?_
  split
  · exact makes_bind hg fun e he => makes_pure he
  · refine makes_after fun key => makes_after fun _ => ?_
    exact makes_bind hg fun e he => makes_pure he

theorem renderable_moreEntries (bound : Nat) :
    (moreEntries g bound).Makes fun items => ∀ item ∈ items, Renderable item.value := by
  induction bound with
  | zero => exact makes_exhausted
  | succ bound ih =>
    refine makes_after fun more => ?_
    split
    · refine makes_after fun closed => ?_
      split
      · exact makes_pure (by simp)
      · refine makes_bind (renderable_entry hg _) fun item hi => ?_
        refine makes_bind ih fun items his => makes_pure ?_
        exact List.forall_mem_cons.mpr ⟨hi, his⟩
    · exact makes_pure (by simp)

theorem renderable_objectLiteral (start : Token) :
    (objectLiteral g start).Makes Renderable := by
  have hclose (items : List Entry) (hi : ∀ item ∈ items, Renderable item.value) :
      Parser.Makes Renderable (do
        let _ ← expect .rightBrace
          ⟨"SYN018", "Expected a closing curly brace to end an object literal."⟩
        return Expr.object (← locate start) items) :=
    makes_after fun _ => makes_after fun loc =>
      makes_pure (.object hi)
  refine makes_after fun closed => ?_
  split
  · exact makes_bind (p := (· = [])) (makes_pure rfl) fun items hi => hclose items (by simp [hi])
  · refine makes_bind (renderable_entry hg _) fun item hi => ?_
    refine makes_bind (renderable_moreEntries hg _) fun items his => ?_
    refine makes_bind (p := (· = item :: items)) (makes_pure rfl) fun all ha => hclose all ?_
    rw [ha]
    exact List.forall_mem_cons.mpr ⟨hi, his⟩

theorem renderable_parts (bound : Nat) :
    (Grammar.parts g bound).Makes fun ps => ∀ p ∈ ps, p.Renderable := by
  induction bound with
  | zero => exact makes_exhausted
  | succ bound ih =>
    refine makes_after fun t => ?_
    split
    · exact makes_pure (by simp)
    · exact makes_pure (by simp)
    · refine makes_after fun _ => makes_bind ih fun ps hps => ?_
      refine makes_pure ?_
      split
      · exact hps
      next ht =>
        refine List.forall_mem_cons.mpr ⟨?_, hps⟩
        simpa [Part.Renderable] using ht
    · refine makes_after fun _ => makes_bind hg fun e he => ?_
      refine makes_after fun _ => makes_bind ih fun ps hps => makes_pure ?_
      exact List.forall_mem_cons.mpr ⟨he, hps⟩
    · exact makes_fail ..

theorem renderable_templateLiteral (start : Token) :
    (templateLiteral g start).Makes Renderable := by
  refine makes_bind (renderable_parts hg _) fun ps hps => makes_after fun _ => ?_
  exact makes_after fun loc => makes_pure (.template hps)

omit hg in
theorem isCallee_callee (first : Token) (member : Clause) :
    (callee first member).Makes IsCallee := by
  refine makes_after fun loc => makes_after fun dot => ?_
  split
  · refine makes_after fun name => makes_pure ?_
    have h : RendersCallee (.member loc (Renderable.word .identifier first.value).value
        (Renderable.word .identifier name.value).value)
        [_, Renderable.word .operator ".", _] := .member rfl (by decide) rfl
    exact ⟨_, h⟩
  · have h : RendersCallee (.ident loc (Renderable.word .identifier first.value).value) _ :=
      .ident rfl
    exact makes_pure ⟨_, h⟩

theorem renderable_callParts : (callParts g).Makes fun found =>
    IsCallee found.1 ∧ ∀ arg ∈ found.2, Renderable arg.value := by
  refine makes_after fun first => ?_
  refine makes_bind (isCallee_callee _ _) fun target ht => ?_
  refine makes_after fun _ => ?_
  refine makes_bind (renderable_arguments hg) fun args ha => ?_
  exact makes_after fun _ => makes_pure ⟨ht, ha⟩

omit hg in
/-- A function literal needs no rendering. -/
theorem renderable_anonymous (start : Token) : (anonymous g start).Makes Renderable := by
  have hbody (style : ParamStyle) : Parser.Makes Renderable (do
      let found ← params g style
      let body ← functionBody g
      let loc ← locate start
      return Expr.function loc (.mk none found.params found.rest body loc)) :=
    makes_after fun found =>
      makes_after fun body =>
        makes_after fun loc => makes_pure (.function _)
  unfold anonymous
  split
  · exact makes_after hbody
  · exact makes_after fun _ => makes_after hbody

theorem renderable_wordAtom (t : Token) : (wordAtom g t).Makes Renderable := by
  unfold wordAtom
  split
  · exact makes_after fun _ => renderable_anonymous t
  · split
    · refine makes_after fun _ => ?_
      refine makes_bind (renderable_callParts hg) fun found h => ?_
      exact makes_after fun loc => makes_pure (.call h.1 h.2)
    · exact makes_fail ..

theorem renderable_atom : (atom g).Makes Renderable := by
  refine makes_after fun t => ?_
  split
  case h_1 =>
    exact makes_after fun _ => makes_after fun loc =>
      makes_pure (.ident _)
  case h_2 hk =>
    -- A number, if its text is one.
    refine makes_after fun _ => ?_
    split
    case h_1 x hx =>
      have ht : t.literal? = some (.number x) := by simp [Token.literal?, hk, hx]
      exact makes_after fun loc => makes_pure (.literal ht)
    case h_2 => exact makes_fail ..
  case h_3 hk =>
    have ht : t.literal? = some (.string t.value) := by simp [Token.literal?, hk]
    exact makes_after fun _ => makes_after fun loc =>
      makes_pure (.literal ht)
  case h_4 hk =>
    have ht : t.literal? = some (.boolean (t.value == "true")) := by simp [Token.literal?, hk]
    exact makes_after fun _ => makes_after fun loc =>
      makes_pure (.literal ht)
  case h_5 hk =>
    have ht : t.literal? = some .null := by simp [Token.literal?, hk]
    exact makes_after fun _ => makes_after fun loc =>
      makes_pure (.literal ht)
  -- What begins with a delimiter is a template, an array, an object or a group.
  case h_6 => exact makes_after fun _ => renderable_templateLiteral hg t
  case h_7 => exact makes_after fun _ => renderable_arrayLiteral hg t
  case h_8 => exact makes_after fun _ => renderable_objectLiteral hg t
  case h_9 =>
    refine makes_after fun _ => makes_bind hg fun e he => ?_
    exact makes_after fun _ => makes_pure he
  -- No other tokens but words begin an expression.
  case h_10 => exact renderable_wordAtom hg t
  case h_11 => exact makes_fail ..
  case h_12 => exact makes_fail ..

theorem renderable_dotMember (dot : Token) {base : Expr} (hb : Renderable base) :
    (dotMember g dot base).Makes Renderable := by
  refine makes_after fun bracket => ?_
  split
  · refine makes_bind hg fun key hk => makes_after fun _ => ?_
    exact makes_after fun loc => makes_pure (.index hb hk _)
  · refine makes_after fun paren => ?_
    split
    · refine makes_bind (renderable_arguments hg) fun args ha => ?_
      exact makes_after fun _ => makes_after fun loc =>
        makes_pure (.safeCall hb ha)
    · refine makes_after fun name => makes_after fun loc => ?_
      exact makes_pure (.property hb _ _)

theorem renderable_bracketMember (start : Token) {base : Expr} (hb : Renderable base)
    (clause : Clause) : (bracketMember g start base clause).Makes Renderable := by
  refine makes_bind hg fun key hk => makes_after fun _ => ?_
  exact makes_after fun loc => makes_pure (.index hb hk _)

theorem renderable_members (bound : Nat) {base : Expr} (hb : Renderable base) :
    (members g bound base).Makes Renderable := by
  induction bound generalizing base with
  | zero => exact makes_exhausted
  | succ bound ih =>
    refine makes_after fun t => ?_
    split
    · refine makes_after fun _ => ?_
      exact makes_bind (renderable_dotMember hg t hb) fun e he => ih he
    · split
      · refine makes_after fun _ => ?_
        exact makes_bind (renderable_bracketMember hg t hb _) fun e he => ih he
      · exact makes_pure hb

theorem renderable_operation (t : Token) : (operation g t).Makes Renderable := by
  unfold operation
  split
  · refine makes_bind hg fun e he => makes_after fun loc => ?_
    exact makes_pure (.unary _ he)
  · split
    · exact makes_fail ..
    · refine makes_bind hg fun left hl => makes_after fun ends => ?_
      split
      · split
        · exact makes_after fun loc => makes_pure (.unary _ hl)
        · exact makes_fail ..
      · refine makes_bind hg fun right hr => makes_after fun loc => ?_
        exact makes_pure (.binary _ hl hr)

theorem renderable_operand : (Grammar.operand g).Makes Renderable := by
  refine makes_after fun t => ?_
  split
  · exact makes_after fun _ => renderable_operation hg t
  · exact makes_bind (renderable_atom hg) fun e he => renderable_members hg _ he

/-- What a pipe makes of a value. -/
theorem renderable_pipeCallee {value : Expr} (hv : Renderable value) :
    (pipeCallee g).Makes fun found =>
      ∀ loc, Renderable (.pipe loc value found.1 found.2) := by
  refine makes_after fun t => ?_
  split
  · refine makes_after fun _ => ?_
    refine makes_bind (p := fun e => ∀ loc, Renderable (.pipe loc value e [])) ?_
      fun e he => makes_pure he
    refine makes_bind hg fun cond hc => makes_after fun _ => ?_
    refine makes_bind hg fun yes hy => makes_after fun _ => ?_
    refine makes_bind hg fun no hn => makes_after fun loc' => ?_
    exact makes_pure fun loc => .pipeChoice hv hc hy hn
  · refine makes_after fun first => ?_
    refine makes_bind (isCallee_callee _ _) fun target ht => ?_
    refine makes_after fun args => ?_
    split
    · refine makes_bind (renderable_arguments hg) fun args ha => ?_
      exact makes_after fun _ => makes_pure fun loc => .pipe hv ht ha
    · exact makes_pure fun loc => .pipe hv ht (by simp)

theorem renderable_pipes (bound : Nat) {value : Expr} (hv : Renderable value) :
    (pipes g bound value).Makes Renderable := by
  induction bound generalizing value with
  | zero => exact makes_exhausted
  | succ bound ih =>
    refine makes_after fun t => ?_
    split
    · refine makes_after fun _ => ?_
      refine makes_bind (renderable_pipeCallee hg hv) fun found hf => ?_
      exact makes_after fun loc => ih (hf loc)
    · exact makes_pure hv

theorem renderable_expressionWith : (expressionWith g).Makes Renderable :=
  makes_bind (renderable_operand hg) fun _ he => renderable_pipes hg _ he

omit hg in
theorem renderable_ofBound (n : Nat) : (ofBound n).expression.Makes Renderable := by
  induction n with
  | zero => exact makes_exhausted
  | succ n ih => exact renderable_expressionWith ih

end Grammar

/-- **Whatever the parser can build has a rendering**, unless a function literal is in it. -/
theorem Expr.exists_renders {n : Nat} {c c' : Cursor} {e : Expr}
    (h : (Grammar.ofBound n).expression c = .ok (e, c')) (hf : e.FunctionFree) :
    ∃ ts, Renders (.expr e) ts :=
  (Grammar.renderable_ofBound n).result h hf

end ScriptLang
