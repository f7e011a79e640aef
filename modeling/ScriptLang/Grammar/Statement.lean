import ScriptLang.Grammar.Expression
import ScriptLang.Grammar.Pattern

/-!
# Statements

Most statements start with a reserved word, which `Grammar.statementWith` dispatches on. A name
before a colon labels the statement after it, and everything else is an expression.

An element write needs its bracket directly after the name: `set a[0] v` writes into `a`, and
`set a [0]` declares `a` with an array (`Grammar.isMemberWrite`).
-/

namespace ScriptLang.Grammar

open ScriptLang.Parser

/-- The word that closes a statement. -/
def closing (clause : Clause) : Parser Unit := do
  let _ ← expectWord "end" clause

/-! ### Declarations and writes -/

/-- Whether a declaration that names `name` writes into a member of it. -/
def isMemberWrite (name : Token) (c : Cursor) : Bool :=
  c.checkOperator "." || (c.check .leftBracket && name.span.adjacentTo c.current.span)

/-- The members that a write goes through: dots, and brackets directly after what they index. -/
def writeTarget (g : Grammar) : Nat → Expr → Parser Expr
  | 0, _ => exhausted
  | bound + 1, base => do
    let t ← current
    if t.isOperator "." then
      let _ ← advance
      let name ← expect .identifier ⟨"SYN098", "Expected property name after dot."⟩
      writeTarget g bound (.property (← locate name) base name.value false)
    else if ← look fun c => c.check .leftBracket && c.adjacent then
      let _ ← advance
      let next ← bracketMember g t base ⟨"SYN100", "Expected a closing ']' after index."⟩
      writeTarget g bound next
    else return base

/-- A write into a member of `name`. -/
def memberWrite (g : Grammar) (loc : Location) (name : Token) : Parser Stmt := do
  let target ← writeTarget g g.bound (.ident (← locate name) name.value)
  let value ← g.expression
  match target with
  | .property _ base member _ => return .setProperty loc base member value
  | .index _ base key _ => return .setIndex loc base key value
  | _ => fail .notAMember name

/-- A declaration or a member write. `exporting` is the word that exports it, which then gives the
location. -/
def declaration (g : Grammar) (exporting : Option Token) : Parser Stmt := do
  let t ← expectWords ["set", "let", "const", "global"] ⟨"SYN092", "Syntax error."⟩
  let loc ← locate (exporting.getD t)
  let kind := (DeclKind.ofWord? t.value).getD .set
  if ← look fun c => c.check .leftBracket || c.check .leftBrace then
    let pattern ← destructure g.bound
    let value ← g.expression
    return .declare loc kind (.pattern pattern) value exporting.isSome
  else
    let name ← expect .identifier ⟨"SYN097", "Expected an identifier for the variable name."⟩
    if ← look (isMemberWrite name) then
      if kind = .set then memberWrite g loc name else fail (.memberNeedsSet t.value) t
    else
      let value ← g.expression
      return .declare loc kind (.name name.value) value exporting.isSome

/-- Assigns the parts of a value to names. -/
def destructuring (g : Grammar) (t : Token) : Parser Stmt := do
  let pattern ← destructure g.bound
  let _ ← expectWord "from"
    ⟨"SYN114", "Expected \"from\" keyword after destructuring pattern."⟩
  let value ← g.expression
  return .destructure (← locate t) pattern value

/-- A function with a name. -/
def functionDeclaration (g : Grammar) (exporting : Option Token) : Parser Stmt := do
  let t ← expectWord "function" ⟨"SYN053", "Expected \"function\" keyword."⟩
  let name ← expect .identifier ⟨"SYN054", "Expected a function name (identifier)."⟩
  let _ ← expect .leftParen
    ⟨"SYN055", "Expected an opening parenthesis for function parameters."⟩
  let found ← params g .parenthesized
  let body ← functionBody g
  let loc ← locate (exporting.getD t)
  return .function loc (.mk (some name.value) found.params found.rest body (← locate t))
    exporting.isSome

/-! ### Control flow -/

/-- A conditional, after its first word `t`, which stands after `depth` others in a row that begins
at the token `start`. After `else if` the inner conditional owns the closing word. -/
def conditionalFrom (g : Grammar) (start : Nat) : Nat → Nat → Token → Parser Stmt
  | 0, _, _ => exhausted
  | bound + 1, depth, t => do
    enter start depth
    let test ← g.expression
    let yes ← block g
    let loc ← locate t
    if ← eatWord "else" then
      if ← look (·.checkKeyword "if") then
        let word ← advance
        let next ← conditionalFrom g start bound (depth + 1) word
        return .cond loc test yes (.elseIf next)
      else
        let no ← block g
        closing ⟨"SYN047", "Expected \"end\" keyword to close if statement."⟩
        return .cond loc test yes (.block no)
    else
      closing ⟨"SYN047", "Expected \"end\" keyword to close if statement."⟩
      return .cond loc test yes .nothing

/-- A conditional, after its first word. -/
def conditional (g : Grammar) (t : Token) : Parser Stmt := do
  conditionalFrom g (← look (·.position)) g.bound 0 t

/-- A guard, after its first word. -/
def guarded (g : Grammar) (t : Token) : Parser Stmt := do
  let test ← g.expression
  let _ ← expectWord "else" ⟨"SYN121", "Expected \"else\" keyword after guard condition."⟩
  let no ← block g
  closing ⟨"SYN122", "Expected \"end\" keyword to close guard statement."⟩
  return .guard (← locate t) test no

/-- A loop with a condition, after its first word. -/
def whileLoop (g : Grammar) (t : Token) : Parser Stmt := do
  let test ← g.expression
  let body ← block g
  closing ⟨"SYN000", "Expected \"end\" keyword to close while loop."⟩
  return .whileLoop (← locate t) test body

/-- A loop without a condition, after its first word. -/
def endlessLoop (g : Grammar) (t : Token) : Parser Stmt := do
  let body ← block g
  closing ⟨"SYN000", "Expected \"end\" keyword to close loop."⟩
  return .loop (← locate t) body

/-- A loop over an array, after its first word. -/
def forLoop (g : Grammar) (t : Token) : Parser Stmt := do
  let name ← expectName ⟨"SYN048A", "Expected an identifier for the loop variable."⟩
  let _ ← expectWord "in"
    ⟨"SYN049", "Expected \"in\" keyword in for loop (e.g., for item in iterable)."⟩
  let iterable ← g.expression
  let body ← block g
  closing ⟨"SYN050", "Expected \"end\" keyword to close for loop."⟩
  return .forEach (← locate t) name.value iterable body

/-- The label after a jump. -/
def jumpLabel : Parser (Option String) := do
  if ← look (·.check .identifier) then return some (← advance).value else return none

/-- A body with a handler, after its first word. -/
def attempt (g : Grammar) (t : Token) : Parser Stmt := do
  let body ← block g
  let loc ← locate t
  let clause : Clause := ⟨"SYN052", "Expected \"end\" keyword to close try-catch block."⟩
  if ← eatWord "catch" then
    let name ← jumpLabel
    let handler ← block g
    closing clause
    return .attempt loc body name (some handler)
  else
    closing clause
    return .attempt loc body none none

/-- The value that a function returns, after the word that returns it. -/
def giveBack (g : Grammar) (t : Token) : Parser Stmt := do
  if ← look fun c => c.atEnd || closesBlock c then return .giveBack (← locate t) none
  else
    let value ← g.expression
    return .giveBack (← locate t) (some value)

/-- A case with a pattern, after its first word. -/
def patternCase (g : Grammar) (t : Token) : Parser Case := do
  let pattern ← pattern g.bound
  let guard ← if ← eatWord "when" then pure (some (← g.expression)) else pure none
  let _ ← expect .colon
    ⟨"SYN083", "Expected a colon (:) after the pattern in a match clause."⟩
  let body ← block g
  return .mk (some pattern) guard body (← locate t)

/-- The case without a pattern, after its first word. -/
def defaultCase (g : Grammar) (t : Token) : Parser Case := do
  let _ ← expect .colon
    ⟨"SYN085", "Expected a colon (:) after \"default\" in a match clause."⟩
  let body ← block g
  return .mk none none body (← locate t)

/-- The cases of a match. -/
def cases (g : Grammar) : Nat → Parser (List Case)
  | 0 => exhausted
  | bound + 1 => do
    let t ← current
    if t.isKeyword "case" then
      let _ ← advance
      let c ← patternCase g t
      return c :: (← cases g bound)
    else if t.isKeyword "default" then
      let _ ← advance
      let c ← defaultCase g t
      return c :: (← cases g bound)
    else return []

/-- A match, after its first word. -/
def choose (g : Grammar) (t : Token) : Parser Stmt := do
  let value ← g.expression
  let found ← cases g g.bound
  if found.isEmpty then fail .emptyMatch t
  else
    closing ⟨"SYN086", "Expected \"end\" keyword to close match statement."⟩
    return .choose (← locate t) value found

/-! ### Calls and modules -/

/-- A call, after the word that starts it, and the name that takes its result. -/
def callStatement (g : Grammar) (t : Token) : Parser Stmt := do
  let (target, args) ← callParts g
  if ← eatOperator "->" then
    let dest ← expect .identifier
      ⟨"SYN069", "Expected an identifier for the assignment destination after \"->\"."⟩
    return .call (← locate t) target args (some dest.value)
  else return .call (← locate t) target args none

/-- What is said about a missing module alias. -/
def aliasClause : Clause := ⟨"SYN076", "Expected an identifier for the module alias."⟩

/-- An import, after the word that starts it: a path with an alias, or a name with a path and
perhaps an alias. -/
def load (t : Token) : Parser Stmt := do
  if ← look (·.check .string) then
    let path ← advance
    let _ ← expectWord "as" ⟨"SYN075", "Expected \"as\" keyword after the module path."⟩
    let name ← expect .identifier aliasClause
    return .load (← locate t) path.value name.value
  else
    let name ← expect .identifier
      ⟨"SYN073a", "Expected an identifier for the module to import."⟩
    let _ ← expectWord "from" ⟨"SYN074a", "Expected \"from\" keyword after imported name."⟩
    let path ← expect .string
      ⟨"SYN074", "Expected a string literal for the module path (e.g., \"my_module\")."⟩
    if ← eatWord "as" then
      let name ← expect .identifier aliasClause
      return .load (← locate t) path.value name.value
    else return .load (← locate t) path.value name.value

/-- An exported declaration, after the word that exports it. -/
def exported (g : Grammar) (t : Token) : Parser Stmt := do
  if ← look (·.atEnd) then fail .exportOfNothing t
  else
    match ← look Cursor.keyword? with
    | some "set" | some "let" | some "const" | some "global" => declaration g (some t)
    | some "function" => functionDeclaration g (some t)
    | some other => failHere (.exportOfStatement other)
    | none => failHere .exportWithoutWord

/-! ### Statements -/

/-- An expression as a statement. -/
def expressionStatement (g : Grammar) : Parser Stmt := do
  let value ← g.expression
  return .expr value.location value

/-- A statement that starts with the reserved word `t`. -/
def wordStatement (g : Grammar) (t : Token) : Parser Stmt := do
  match t.value with
  | "set" | "let" | "const" | "global" => declaration g none
  | "function" => functionDeclaration g none
  | "not" | "and" | "or" | "fn" => expressionStatement g
  | "destructure" => do let _ ← advance; destructuring g t
  | "if" => do let _ ← advance; conditional g t
  | "guard" => do let _ ← advance; guarded g t
  | "for" => do let _ ← advance; forLoop g t
  | "while" => do let _ ← advance; whileLoop g t
  | "loop" => do let _ ← advance; endlessLoop g t
  | "break" => do
    let _ ← advance
    let label ← jumpLabel
    return .breakTo (← locate t) label
  | "continue" => do
    let _ ← advance
    let label ← jumpLabel
    return .continueTo (← locate t) label
  | "try" => do let _ ← advance; attempt g t
  | "call" => do let _ ← advance; callStatement g t
  | "return" => do let _ ← advance; giveBack g t
  | "show" => do
    let _ ← advance
    let value ← g.expression
    return .print (← locate t) value
  | "throw" => do
    let _ ← advance
    let value ← g.expression
    return .raise (← locate t) value
  | "match" => do let _ ← advance; choose g t
  | "import" => do let _ ← advance; load t
  | "export" => do let _ ← advance; exported g t
  | other => fail (.strayWord other) t

/-- A statement. -/
def statementWith (g : Grammar) : Parser Stmt := do
  let t ← current
  if t.kind = .eof then fail .endOfInput t
  else if t.kind = .keyword then wordStatement g t
  else if t.kind = .identifier ∧ (← look (·.peek 1)).kind = .colon then
    let _ ← advance
    let _ ← advance
    let body ← g.statement
    return .labeled (← locate t) t.value body
  else expressionStatement g

end ScriptLang.Grammar
