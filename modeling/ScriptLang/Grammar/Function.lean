import ScriptLang.Grammar.Parser

/-!
# Blocks, argument lists and functions

The rules that expressions and statements share: blocks of statements (`Grammar.block`), argument
lists (`Grammar.arguments`), parameter lists in their two styles (`Grammar.params`), and the callee
and arguments after the word `call` (`Grammar.callParts`).
-/

namespace ScriptLang.Grammar

open ScriptLang.Parser

/-- Statements up to a word that closes the block. -/
def statements (g : Grammar) : Nat → Parser (List Stmt)
  | 0 => exhausted
  | bound + 1 => do
    if ← look fun c => c.atEnd || closesBlock c then return []
    else
      let s ← g.statement
      return s :: (← statements g bound)

/-- A block: statements up to a word that closes it, which is not consumed. -/
def block (g : Grammar) : Parser (List Stmt) := statements g g.bound

/-- An element of a list, perhaps spread. -/
def element (g : Grammar) : Parser Element := do
  if ← eat .spread then return .spread (← g.expression) else return .item (← g.expression)

/-- Elements separated by commas; at least one. -/
def elements (g : Grammar) : Nat → Parser (List Element)
  | 0 => exhausted
  | bound + 1 => do
    let e ← element g
    if ← eat .comma then return e :: (← elements g bound) else return [e]

/-- Arguments up to a closing parenthesis, which is not consumed. -/
def arguments (g : Grammar) : Parser (List Element) := do
  if ← look (·.check .rightParen) then return [] else elements g g.bound

/-- How a parameter list is delimited. -/
inductive ParamStyle where
  /-- In parentheses, with commas. -/
  | parenthesized
  /-- Up to an arrow, without commas. -/
  | arrow
  deriving DecidableEq

/-- A parameter list: the parameters and the rest parameter. -/
structure Params where
  params : List Param
  rest : Option String

/-- The rest parameter, after its three dots. -/
def restParam (style : ParamStyle) : Parser String := do
  let name ← expect .identifier ⟨"SYN056", "Expected an identifier for rest parameter."⟩
  if ← look (·.check .comma) then fail .restNotLast name
  else
    if style = .arrow then
      let _ ← eatOperator "->"
    return name.value

/-- The default of the parameter `name`, if one is given; after a parameter with a default each
must have one. -/
def paramDefault (g : Grammar) (defaulted : Bool) (name : Token) : Parser (Option Expr) := do
  if ← eat .colon then return some (← g.expression)
  else if defaulted then fail .defaultOrder name
  else return none

/-- Whether another parameter follows. -/
def moreParams (style : ParamStyle) : Parser Bool := do
  match style with
  | .parenthesized => eat .comma
  | .arrow =>
    if ← eatOperator "->" then return false
    else if ← look (·.check .comma) then failHere .commaInArrow
    else return true

/-- Parameters up to the closing mark. `defaulted` tells whether one with a default came before. -/
def paramsFrom (g : Grammar) (style : ParamStyle) : Nat → Bool → Parser Params
  | 0, _ => exhausted
  | bound + 1, defaulted => do
    if ← eat .spread then
      let name ← restParam style
      return ⟨[], some name⟩
    else
      let name ← expectName ⟨"SYN021", "Expected a parameter name (identifier)."⟩
      let value ← paramDefault g defaulted name
      let param := Param.mk name.value value
      if ← moreParams style then
        let others ← paramsFrom g style bound (defaulted || value.isSome)
        return ⟨param :: others.params, others.rest⟩
      else return ⟨[param], none⟩

/-- A parameter list with its closing mark. -/
def params (g : Grammar) (style : ParamStyle) : Parser Params := do
  let closed ← match style with
    | .parenthesized => look (·.check .rightParen)
    | .arrow => eatOperator "->"
  let found ← if closed then pure ⟨[], none⟩ else paramsFrom g style g.bound false
  if style = .parenthesized then
    if ← look fun c => found.rest.isSome && !c.check .rightParen then failHere .afterRest
    else
      let _ ← expect .rightParen
        ⟨"SYN026", "Expected a closing parenthesis for function parameters."⟩
      return found
  else return found

/-- The body of a function with its closing word. -/
def functionBody (g : Grammar) : Parser (List Stmt) := do
  let body ← block g
  let _ ← expectText .keyword "end"
    ⟨"SYN027", "Expected \"end\" keyword to close function declaration."⟩
  return body

/-- A function without a name, after the word that starts it. -/
def anonymous (g : Grammar) (start : Token) : Parser Expr := do
  let style ← if start.value == "fn" then pure ParamStyle.arrow
    else
      let _ ← expect .leftParen
        ⟨"SYN020", "Expected an opening parenthesis for function parameters."⟩
      pure ParamStyle.parenthesized
  let found ← params g style
  let body ← functionBody g
  let loc ← locate start
  return .function loc (.mk none found.params found.rest body loc)

/-- A name, or the member of a module after a dot, as a callee. -/
def callee (first : Token) (member : Clause) : Parser Expr := do
  let loc ← locate first
  if ← eatOperator "." then
    let name ← expect .identifier member
    return .member loc first.value name.value
  else return .ident loc first.value

/-- The callee and the arguments of a call, after the word that starts it. -/
def callParts (g : Grammar) : Parser (Expr × List Element) := do
  let first ← expect .identifier
    ⟨"SYN064", "Expected a function name (identifier) or module name after \"call\"."⟩
  let target ← callee first
    ⟨"SYN065", "Expected a property name (identifier) after \".\" for module access."⟩
  let _ ← expect .leftParen
    ⟨"SYN066", "Expected an opening parenthesis for function arguments."⟩
  let args ← arguments g
  let _ ← expect .rightParen
    ⟨"SYN067", "Expected a closing parenthesis for function arguments."⟩
  return (target, args)

end ScriptLang.Grammar
