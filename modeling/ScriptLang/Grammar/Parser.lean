import ScriptLang.Diagnostic.Ghost
import ScriptLang.Grammar.Cursor
import ScriptLang.Grammar.Fault
import ScriptLang.Tree.Basic

/-!
# Parsers

A parser moves a cursor and yields a result, or stops with a fault at a token.

* `Parser.expect`, `Parser.expectWord` and `Parser.expectName` consume a token or stop.
* `Parser.enter` is for calls that nothing guards: it stops if the stack does not hold them.
* `Grammar` holds the two parsers that the rules of the grammar call on each other: expressions and
  statements. The rules are written over a given `Grammar`; `Grammar.Program` ties the knot with a
  bound on the depth, which `Stop.exhausted` reports. The bound is computed from the number of
  tokens, each of which is consumed at most once, so that it is never met.
-/

namespace ScriptLang

/-- Why a parser stops. -/
inductive Stop where
  /-- The tokens are no program; the fault shows at a token. The ghost is the number of tokens that
  had been consumed. -/
  | fault (fault : GrammarFault) (token : Token) (consumed : Ghost Nat)
  /-- The bound on the depth is met. -/
  | exhausted
  /-- The column of the `eof` token that is added does not fit. -/
  | overflow
  /-- The stack is used up. -/
  | outOfStack
  deriving Inhabited

/-- A parser. -/
abbrev Parser := StateT Cursor (Except Stop)

namespace Parser

/-- Stops with a fault at a token. -/
def fail {α : Type} (fault : GrammarFault) (token : Token) : Parser α := do
  throw (.fault fault token (.of (← get).position))

/-- Stops because the bound is met. -/
def exhausted {α : Type} : Parser α := throw .exhausted

/-- A call at a depth inside of the one at the token `start`, which nothing guards. -/
def enter (start depth : Nat) : Parser Unit := do
  if (← get).platform.fits start depth then return () else throw .outOfStack

/-- What `f` sees at the cursor. -/
def look {α : Type} (f : Cursor → α) : Parser α := do return f (← get)

/-- The current token. -/
def current : Parser Token := look Cursor.current

/-- Consumes the current token. -/
def advance : Parser Token := do
  let c ← get
  set c.advance
  return c.current

/-- Stops with a fault at the current token. -/
def failHere {α : Type} (fault : GrammarFault) : Parser α := do fail fault (← current)

/-- Consumes the current token if `test` holds at the cursor, and tells whether it did. -/
def eatIf (test : Cursor → Bool) : Parser Bool := do
  if ← look test then
    let _ ← advance
    return true
  else return false

/-- Consumes a token of a kind if there is one. -/
def eat (kind : TokenKind) : Parser Bool := eatIf (·.check kind)

/-- Consumes a reserved word if it is there. -/
def eatWord (word : String) : Parser Bool := eatIf (·.checkKeyword word)

/-- Consumes an operator if it is there. -/
def eatOperator (symbol : String) : Parser Bool := eatIf (·.checkOperator symbol)

/-- The location of a token. -/
def locate (t : Token) : Parser Location := return t.location

/-- Consumes a token of a kind, or stops. -/
def expect (kind : TokenKind) (clause : Clause) : Parser Token := do
  let t ← current
  if t.kind = kind then advance else fail (.expected clause kind none t) t

/-- Consumes a token of a kind and a text, or stops. -/
def expectText (kind : TokenKind) (text : String) (clause : Clause) : Parser Token := do
  let t ← current
  if t.is kind text then advance else fail (.expected clause kind (some text) t) t

/-- Consumes one of some reserved words, or stops. -/
def expectWords (words : List String) (clause : Clause) : Parser Token := do
  let t ← current
  if t.kind = .keyword ∧ words.contains t.value then advance
  else fail (.expectedWord clause words t) t

/-- Consumes a reserved word, or stops. -/
def expectWord (word : String) (clause : Clause) : Parser Token := expectWords [word] clause

/-- Consumes a name, or stops. -/
def expectName (clause : Clause) : Parser Token := do
  let t ← current
  if t.kind = .identifier then advance else fail (.expectedName clause t) t

/-- The words that close a block. -/
def closingWords : List String := ["end", "else", "catch", "case", "default"]

/-- The words that only start a statement. -/
def startingWords : List String :=
  ["set", "let", "const", "global", "if", "guard", "while", "for", "loop", "function", "call",
   "show", "return", "try", "throw", "match", "import", "export", "break", "continue",
   "destructure"]

/-- Whether a token closes a block. -/
def closesBlock (c : Cursor) : Bool :=
  match c.keyword? with
  | some word => closingWords.contains word
  | none => false

/-- Whether no operand can follow: the end, a closing mark, or a word that closes a block or starts
a statement. -/
def endsExpression (c : Cursor) : Bool :=
  let t := c.current
  match t.kind with
  | .eof | .rightParen | .rightBracket | .rightBrace | .comma | .colon | .interpolationEnd
  | .backtick => true
  | .operator => t.value == "->"
  | .keyword =>
    closingWords.contains t.value || startingWords.contains t.value || t.value == "then"
  | _ => false

end Parser

/-- The parsers that the rules of the grammar call on each other, and the bound on their
repetitions. -/
structure Grammar where
  expression : Parser Expr
  statement : Parser Stmt
  bound : Nat

end ScriptLang
