import ScriptLang.Grammar.Function
import ScriptLang.Number.Decimal

/-!
# Expressions

Operators stand before their operands. `Grammar.expressionWith` reads an operator expression or a
primary with its members, followed by any number of pipes.

* `Grammar.operation` reads an operator with its operands. A minus sign whose second operand is
  missing negates.
* `Grammar.members` reads the dots, brackets and safe calls after a primary.
* `Grammar.atom` reads a primary: a literal, a name, a container, a template, a function, a call or
  an expression in parentheses.
-/

namespace ScriptLang.Grammar

open ScriptLang.Parser

/-! ### Containers and templates -/

/-- The further items of an array literal; a comma may end them. -/
def moreItems (g : Grammar) : Nat → Parser (List Element)
  | 0 => exhausted
  | bound + 1 => do
    if ← eat .comma then
      if ← look (·.check .rightBracket) then return []
      else
        let e ← element g
        return e :: (← moreItems g bound)
    else return []

/-- An array literal, after its opening bracket. -/
def arrayLiteral (g : Grammar) (start : Token) : Parser Expr := do
  let items ← if ← look (·.check .rightBracket) then pure []
    else
      let first ← element g
      pure (first :: (← moreItems g g.bound))
  let _ ← expect .rightBracket
    ⟨"SYN012", "Expected a closing square bracket to end an array literal."⟩
  return .array (← locate start) items

/-- What is said about a missing key of an object literal. -/
def keyClause (first : Bool) : Clause :=
  if first then ⟨"SYN014", "Expected a property name (identifier) in object literal."⟩
  else
    ⟨"SYN016", "Expected another property name (identifier) after comma in object literal."⟩

/-- What is said about a missing colon of an object literal. -/
def colonClause (first : Bool) : Clause :=
  ⟨if first then "SYN015" else "SYN017",
    "Expected a colon \":\" after property name in object literal."⟩

/-- An entry of an object literal. -/
def entry (g : Grammar) (first : Bool) : Parser Entry := do
  if ← eat .spread then return .spread (← g.expression)
  else
    let key ← expect .identifier (keyClause first)
    let _ ← expect .colon (colonClause first)
    return .property key.value (← g.expression)

/-- The further entries of an object literal; a comma may end them. -/
def moreEntries (g : Grammar) : Nat → Parser (List Entry)
  | 0 => exhausted
  | bound + 1 => do
    if ← eat .comma then
      if ← look (·.check .rightBrace) then return []
      else
        let e ← entry g false
        return e :: (← moreEntries g bound)
    else return []

/-- An object literal, after its opening brace. -/
def objectLiteral (g : Grammar) (start : Token) : Parser Expr := do
  let entries ← if ← look (·.check .rightBrace) then pure []
    else
      let first ← entry g true
      pure (first :: (← moreEntries g g.bound))
  let _ ← expect .rightBrace
    ⟨"SYN018", "Expected a closing curly brace to end an object literal."⟩
  return .object (← locate start) entries

/-- The parts of a template up to its closing backtick. Empty texts are dropped. -/
def parts (g : Grammar) : Nat → Parser (List Part)
  | 0 => exhausted
  | bound + 1 => do
    let t ← current
    match t.kind with
    | .eof | .backtick => return []
    | .fragment =>
      let _ ← advance
      let others ← parts g bound
      return if t.value.isEmpty then others else .text t.value :: others
    | .interpolationStart =>
      let _ ← advance
      let value ← g.expression
      let _ ← expect .interpolationEnd
        ⟨"SYN105", "Expected closing brace \x7d after expression in template literal."⟩
      return .expr value :: (← parts g bound)
    | _ => fail (.tokenInTemplate t.value) t

/-- A template, after its opening backtick. -/
def templateLiteral (g : Grammar) (start : Token) : Parser Expr := do
  let found ← parts g g.bound
  let _ ← expect .backtick ⟨"SYN107", "Expected backtick ` to end a template literal."⟩
  return .template (← locate start) found

/-! ### Primaries and their members -/

/-- A primary that starts with a reserved word. -/
def wordAtom (g : Grammar) (t : Token) : Parser Expr := do
  if t.value == "function" || t.value == "fn" then
    let _ ← advance
    anonymous g t
  else if t.value == "call" then
    let _ ← advance
    let (target, args) ← callParts g
    return .call (← locate t) target args false
  else fail (.wordInExpression t.value) t

/-- A primary. -/
def atom (g : Grammar) : Parser Expr := do
  let t ← current
  match t.kind with
  | .identifier =>
    let _ ← advance
    return .ident (← locate t) t.value
  | .number =>
    let _ ← advance
    match Decimal.read? t.value with
    | some x => return .literal (← locate t) (.number x)
    | none => fail (.badNumber t.value) t
  | .string =>
    let _ ← advance
    return .literal (← locate t) (.string t.value)
  | .boolean =>
    let _ ← advance
    return .literal (← locate t) (.boolean (t.value == "true"))
  | .null =>
    let _ ← advance
    return .literal (← locate t) .null
  | .backtick =>
    let _ ← advance
    templateLiteral g t
  | .leftBracket =>
    let _ ← advance
    arrayLiteral g t
  | .leftBrace =>
    let _ ← advance
    objectLiteral g t
  | .leftParen =>
    let _ ← advance
    let inner ← g.expression
    let _ ← expect .rightParen
      ⟨"SYN018", "Expected a closing parenthesis for grouped expression."⟩
    return inner
  | .keyword => wordAtom g t
  | .eof => fail .endInExpression t
  | _ => fail (.tokenInExpression t.value) t

/-- A member after a dot, which has been consumed. A safe dot may also stand before a bracket or an
argument list. -/
def dotMember (g : Grammar) (dot : Token) (base : Expr) : Parser Expr := do
  let safe := dot.value == "?."
  if ← eatIf fun c => safe && c.check .leftBracket then
    let key ← g.expression
    let _ ← expect .rightBracket
      ⟨"SYN041", "Expected closing square bracket for safe array/object access."⟩
    return .index (← locate dot) base key true
  else if ← eatIf fun c => safe && c.check .leftParen then
    let args ← arguments g
    let _ ← expect .rightParen
      ⟨"SYN067", "Expected a closing parenthesis for safe function call."⟩
    return .call (← locate dot) base args true
  else
    let name ← expect .identifier ⟨"SYN042", "Expected property name after dot operator."⟩
    return .property (← locate name) base name.value safe

/-- A member in brackets, after the opening bracket. -/
def bracketMember (g : Grammar) (start : Token) (base : Expr) (clause : Clause) :
    Parser Expr := do
  let key ← g.expression
  let _ ← expect .rightBracket clause
  return .index (← locate start) base key false

/-- The members after an expression. -/
def members (g : Grammar) : Nat → Expr → Parser Expr
  | 0, _ => exhausted
  | bound + 1, base => do
    let t ← current
    if t.isOperator "." || t.isOperator "?." then
      let _ ← advance
      members g bound (← dotMember g t base)
    else if t.kind = .leftBracket then
      let _ ← advance
      let next ← bracketMember g t base
        ⟨"SYN041", "Expected closing square bracket for array/object access (e.g., arr[index])."⟩
      members g bound next
    else return base

/-- A primary with its members. -/
def primary (g : Grammar) : Parser Expr := do members g g.bound (← atom g)

/-! ### Operators and pipes -/

/-- Whether a token is an operator that stands before its operands. -/
def isOperation (t : Token) : Bool :=
  match t.kind with
  | .operator => t.value != "." && t.value != "?." && t.value != "|>"
  | .keyword => t.value == "not" || t.value == "and" || t.value == "or"
  | _ => false

/-- The operands of an operator, which has been consumed. -/
def operation (g : Grammar) (t : Token) : Parser Expr := do
  if t.value == "not" then
    let operand ← g.expression
    return .unary (← locate t) .not operand
  else
    match BinaryOp.ofSymbol? t.value with
    | none => fail (.strayOperator t.value) t
    | some op =>
      let left ← g.expression
      if ← look endsExpression then
        if op = .sub then return .unary (← locate t) .neg left
        else fail (.notUnary t.value) t
      else
        let right ← g.expression
        return .binary (← locate t) op left right

/-- An operator expression or a primary. -/
def operand (g : Grammar) : Parser Expr := do
  let t ← current
  if isOperation t then
    let _ ← advance
    operation g t
  else primary g

/-- A choice between two callees, after the word that starts it. -/
def choiceCallee (g : Grammar) (start : Token) : Parser Expr := do
  let cond ← g.expression
  let _ ← expectWord "then" ⟨"SYN130", "Expected 'then' after condition in pipe inline-if."⟩
  let yes ← g.expression
  let _ ← expectWord "else" ⟨"SYN131", "Expected 'else' in pipe inline-if."⟩
  let no ← g.expression
  return .inlineIf (← locate start) cond yes no

/-- The callee of a pipe and its further arguments. -/
def pipeCallee (g : Grammar) : Parser (Expr × List Element) := do
  let t ← current
  if t.isKeyword "if" then
    let _ ← advance
    return (← choiceCallee g t, [])
  else
    let first ← expect .identifier ⟨"SYN132", "Expected a function name after '|>'."⟩
    let target ← callee first ⟨"SYN133", "Expected property name after '.' in pipe callee."⟩
    if ← eat .leftParen then
      let args ← arguments g
      let _ ← expect .rightParen ⟨"SYN134", "Expected ')' after pipe arguments."⟩
      return (target, args)
    else return (target, [])

/-- The pipes after an expression. -/
def pipes (g : Grammar) : Nat → Expr → Parser Expr
  | 0, _ => exhausted
  | bound + 1, value => do
    let t ← current
    if t.isOperator "|>" then
      let _ ← advance
      let (target, args) ← pipeCallee g
      pipes g bound (.pipe (← locate t) value target args)
    else return value

/-- An expression. -/
def expressionWith (g : Grammar) : Parser Expr := do pipes g g.bound (← operand g)

end ScriptLang.Grammar
