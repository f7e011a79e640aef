import ScriptLang.Proofs.ExpressionParts
import ScriptLang.Grammar.Expression

/-!
# Rendering expressions as tokens

`Renders` relates a phrase and the tokens that spell it. An operator stands before its operands.
Parentheses stand around an operand that is no name, no literal, no operation with two operands and
no negated condition, and around the base of a member and a piped value unless these are one token.
Nothing else is wrapped.

Tokens are told by kind and text; their places are free, and so is the spelling of an operator that
has several.

* A `Phrase` is an expression or one of the lists that stand inside of one.
* `Expr.isBare` tells the operands that stand without parentheses, `Expr.isSingle` the bases.
* `Encloses` puts parentheses around tokens, or leaves them as they are.
* `Expr.exists_renders`: every expression that the parser can build has a rendering, if no function
  literal is in it. `Renderable` is what each rule of the grammar contributes to this.
-/

namespace ScriptLang

/-- The literal that a token stands for. -/
def Token.literal? (t : Token) : Option Literal :=
  match t.kind with
  | .number => (Decimal.read? t.value).map .number
  | .string => some (.string t.value)
  | .boolean => some (.boolean (t.value == "true"))
  | .null => some .null
  | _ => none

namespace Expr

/-- The expressions that are spelled by one token. -/
def isSingle : Expr → Bool
  | .ident .. | .literal .. => true
  | _ => false

/-- The operands that stand without parentheses. -/
def isBare : Expr → Bool
  | .ident .. | .literal .. | .binary .. | .unary _ .not _ => true
  | _ => false

end Expr

/-- Tokens as they are, or in parentheses. -/
inductive Encloses : Bool → List Token → List Token → Prop
  | bare {ts : List Token} : Encloses true ts ts
  | wrapped {ts : List Token} {opening closing : Token} : opening.kind = .leftParen →
      closing.kind = .rightParen → Encloses false ts (opening :: (ts ++ [closing]))

/-- The tokens of a callee that follows a word or a pipe: a name, or a member of a module. -/
inductive RendersCallee : Expr → List Token → Prop
  | ident {loc : Location} {name : Token} : name.kind = .identifier →
      RendersCallee (.ident loc name.value) [name]
  | member {loc : Location} {module dot name : Token} : module.kind = .identifier →
      dot.isOperator "." → name.kind = .identifier →
      RendersCallee (.member loc module.value name.value) [module, dot, name]

/-- An expression, or a list of what stands inside of one. -/
inductive Phrase where
  | expr (e : Expr)
  | element (e : Element)
  | elements (es : List Element)
  | entry (e : Entry)
  | entries (es : List Entry)
  | parts (ps : List Part)

/-- The tokens of a phrase. -/
inductive Renders : Phrase → List Token → Prop
  | ident {loc : Location} {t : Token} : t.kind = .identifier →
      Renders (.expr (.ident loc t.value)) [t]
  | literal {loc : Location} {t : Token} {value : Literal} : t.literal? = some value →
      Renders (.expr (.literal loc value)) [t]
  | binary {loc : Location} {t : Token} {op : BinaryOp} {left right : Expr}
      {ls ls' rs rs' : List Token} : Grammar.isOperation t → BinaryOp.ofSymbol? t.value = some op →
      Renders (.expr left) ls → Encloses left.isBare ls ls' →
      Renders (.expr right) rs → Encloses right.isBare rs rs' →
      Renders (.expr (.binary loc op left right)) (t :: (ls' ++ rs'))
  | not {loc : Location} {t : Token} {operand : Expr} {ts ts' : List Token} :
      t.isKeyword "not" → Renders (.expr operand) ts → Encloses operand.isBare ts ts' →
      Renders (.expr (.unary loc .not operand)) (t :: ts')
  | neg {loc : Location} {t : Token} {operand : Expr} {ts ts' : List Token} :
      t.isOperator "-" → Renders (.expr operand) ts → Encloses operand.isBare ts ts' →
      Renders (.expr (.unary loc .neg operand)) (t :: ts')
  | array {loc : Location} {opening closing : Token} {items : List Element} {ts : List Token} :
      opening.kind = .leftBracket → closing.kind = .rightBracket → Renders (.elements items) ts →
      Renders (.expr (.array loc items)) (opening :: (ts ++ [closing]))
  | object {loc : Location} {opening closing : Token} {entries : List Entry} {ts : List Token} :
      opening.kind = .leftBrace → closing.kind = .rightBrace → Renders (.entries entries) ts →
      Renders (.expr (.object loc entries)) (opening :: (ts ++ [closing]))
  | template {loc : Location} {opening closing : Token} {ps : List Part} {ts : List Token} :
      opening.kind = .backtick → closing.kind = .backtick → Renders (.parts ps) ts →
      Renders (.expr (.template loc ps)) (opening :: (ts ++ [closing]))
  | property {loc : Location} {base : Expr} {bs bs' : List Token} {dot name : Token}
      {safe : Bool} : Renders (.expr base) bs → Encloses base.isSingle bs bs' →
      dot.isOperator (if safe then "?." else ".") → name.kind = .identifier →
      Renders (.expr (.property loc base name.value safe)) (bs' ++ [dot, name])
  | index {loc : Location} {base key : Expr} {bs bs' ks : List Token} {opening closing : Token} :
      Renders (.expr base) bs → Encloses base.isSingle bs bs' → opening.kind = .leftBracket →
      Renders (.expr key) ks → closing.kind = .rightBracket →
      Renders (.expr (.index loc base key false)) (bs' ++ opening :: (ks ++ [closing]))
  | safeIndex {loc : Location} {base key : Expr} {bs bs' ks : List Token}
      {dot opening closing : Token} :
      Renders (.expr base) bs → Encloses base.isSingle bs bs' → dot.isOperator "?." →
      opening.kind = .leftBracket → Renders (.expr key) ks → closing.kind = .rightBracket →
      Renders (.expr (.index loc base key true)) (bs' ++ dot :: opening :: (ks ++ [closing]))
  | call {loc : Location} {word opening closing : Token} {callee : Expr} {args : List Element}
      {cs ts : List Token} : word.isKeyword "call" → RendersCallee callee cs →
      opening.kind = .leftParen → Renders (.elements args) ts → closing.kind = .rightParen →
      Renders (.expr (.call loc callee args false)) (word :: (cs ++ opening :: (ts ++ [closing])))
  | safeCall {loc : Location} {base : Expr} {args : List Element} {bs bs' ts : List Token}
      {dot opening closing : Token} :
      Renders (.expr base) bs → Encloses base.isSingle bs bs' → dot.isOperator "?." →
      opening.kind = .leftParen → Renders (.elements args) ts → closing.kind = .rightParen →
      Renders (.expr (.call loc base args true)) (bs' ++ dot :: opening :: (ts ++ [closing]))
  | pipe {loc : Location} {value callee : Expr} {vs vs' cs : List Token} {bar : Token} :
      Renders (.expr value) vs → Encloses value.isSingle vs vs' → bar.isOperator "|>" →
      RendersCallee callee cs →
      Renders (.expr (.pipe loc value callee [])) (vs' ++ bar :: cs)
  | pipeCall {loc : Location} {value callee : Expr} {args : List Element}
      {vs vs' cs ts : List Token} {bar opening closing : Token} :
      Renders (.expr value) vs → Encloses value.isSingle vs vs' → bar.isOperator "|>" →
      RendersCallee callee cs → opening.kind = .leftParen → Renders (.elements args) ts →
      closing.kind = .rightParen →
      Renders (.expr (.pipe loc value callee args))
        (vs' ++ bar :: (cs ++ opening :: (ts ++ [closing])))
  | pipeChoice {loc loc' : Location} {value cond yes no : Expr} {vs vs' cs ys ns : List Token}
      {bar word follows otherwise : Token} :
      Renders (.expr value) vs → Encloses value.isSingle vs vs' → bar.isOperator "|>" →
      word.isKeyword "if" → Renders (.expr cond) cs → follows.isKeyword "then" →
      Renders (.expr yes) ys → otherwise.isKeyword "else" → Renders (.expr no) ns →
      Renders (.expr (.pipe loc value (.inlineIf loc' cond yes no) []))
        (vs' ++ bar :: word :: (cs ++ follows :: (ys ++ otherwise :: ns)))
  | item {e : Expr} {ts : List Token} : Renders (.expr e) ts → Renders (.element (.item e)) ts
  | spread {e : Expr} {dots : Token} {ts : List Token} : dots.kind = .spread →
      Renders (.expr e) ts → Renders (.element (.spread e)) (dots :: ts)
  | noElements : Renders (.elements []) []
  | lastElement {e : Element} {ts : List Token} : Renders (.element e) ts →
      Renders (.elements [e]) ts
  | moreElements {e e' : Element} {es : List Element} {comma : Token} {ts us : List Token} :
      Renders (.element e) ts → comma.kind = .comma → Renders (.elements (e' :: es)) us →
      Renders (.elements (e :: e' :: es)) (ts ++ comma :: us)
  | keyed {key colon : Token} {e : Expr} {ts : List Token} : key.kind = .identifier →
      colon.kind = .colon → Renders (.expr e) ts →
      Renders (.entry (.property key.value e)) (key :: colon :: ts)
  | merged {e : Expr} {dots : Token} {ts : List Token} : dots.kind = .spread →
      Renders (.expr e) ts → Renders (.entry (.spread e)) (dots :: ts)
  | noEntries : Renders (.entries []) []
  | lastEntry {e : Entry} {ts : List Token} : Renders (.entry e) ts → Renders (.entries [e]) ts
  | moreEntries {e e' : Entry} {es : List Entry} {comma : Token} {ts us : List Token} :
      Renders (.entry e) ts → comma.kind = .comma → Renders (.entries (e' :: es)) us →
      Renders (.entries (e :: e' :: es)) (ts ++ comma :: us)
  | noParts : Renders (.parts []) []
  | text {t : Token} {ps : List Part} {ts : List Token} : t.kind = .fragment → t.value ≠ "" →
      Renders (.parts ps) ts → Renders (.parts (.text t.value :: ps)) (t :: ts)
  | interpolation {opening closing : Token} {e : Expr} {ps : List Part} {ts us : List Token} :
      opening.kind = .interpolationStart → Renders (.expr e) ts →
      closing.kind = .interpolationEnd → Renders (.parts ps) us →
      Renders (.parts (.expr e :: ps)) (opening :: (ts ++ closing :: us))

end ScriptLang
