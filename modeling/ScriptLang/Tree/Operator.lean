/-!
# Operators and declaration words

* `BinaryOp.ofSymbol?` reads every spelling of an operator, `BinaryOp.symbol` writes the canonical
  one.
* `DeclKind` is the word that introduces a variable; it decides where the variable lives and whether
  it may change.
-/

namespace ScriptLang

/-- Operators with two operands. -/
inductive BinaryOp where
  | add
  | sub
  | mul
  | div
  | mod
  | gt
  | lt
  | gtEq
  | ltEq
  /-- Strict equality. -/
  | eq
  /-- Strict inequality. -/
  | notEq
  | and
  | or
  /-- The first operand unless it is null. -/
  | coalesce
  deriving DecidableEq, Repr, Inhabited

namespace BinaryOp

/-- The operator of a symbol or logical word. -/
def ofSymbol? : String → Option BinaryOp
  | "+" => some .add
  | "-" => some .sub
  | "*" => some .mul
  | "/" => some .div
  | "%" => some .mod
  | ">" => some .gt
  | "<" => some .lt
  | ">=" => some .gtEq
  | "<=" => some .ltEq
  | "=" | "==" | "===" => some .eq
  | "!" | "!=" | "!==" => some .notEq
  | "and" | "&&" => some .and
  | "or" | "||" => some .or
  | "??" => some .coalesce
  | _ => none

/-- The canonical spelling. -/
def symbol : BinaryOp → String
  | .add => "+"
  | .sub => "-"
  | .mul => "*"
  | .div => "/"
  | .mod => "%"
  | .gt => ">"
  | .lt => "<"
  | .gtEq => ">="
  | .ltEq => "<="
  | .eq => "=="
  | .notEq => "!="
  | .and => "and"
  | .or => "or"
  | .coalesce => "??"

/-- The name in tree dumps. -/
def name : BinaryOp → String
  | .add => "Add"
  | .sub => "Sub"
  | .mul => "Mul"
  | .div => "Div"
  | .mod => "Mod"
  | .gt => "Gt"
  | .lt => "Lt"
  | .gtEq => "GtEq"
  | .ltEq => "LtEq"
  | .eq => "Eq"
  | .notEq => "NotEq"
  | .and => "And"
  | .or => "Or"
  | .coalesce => "Coalesce"

/-- The canonical spelling reads back as the operator. -/
theorem ofSymbol?_symbol (op : BinaryOp) : ofSymbol? op.symbol = some op := by
  cases op <;> rfl

end BinaryOp

/-- Operators with one operand. -/
inductive UnaryOp where
  | neg
  | not
  deriving DecidableEq, Repr, Inhabited

namespace UnaryOp

/-- The spelling. -/
def symbol : UnaryOp → String
  | .neg => "-"
  | .not => "not"

/-- The name in tree dumps. -/
def name : UnaryOp → String
  | .neg => "Neg"
  | .not => "Not"

end UnaryOp

/-- The word that introduces a variable. -/
inductive DeclKind where
  /-- May be bound again; assignment looks outward up to the file's own scope. -/
  | set
  /-- Lives in its block. -/
  | let
  /-- Lives in its block and never changes. -/
  | const
  /-- Lives in the global scope. -/
  | global
  deriving DecidableEq, Repr, Inhabited

namespace DeclKind

/-- The kind of a word. -/
def ofWord? : String → Option DeclKind
  | "set" => some .set
  | "let" => some .let
  | "const" => some .const
  | "global" => some .global
  | _ => none

/-- The word of a kind. -/
def word : DeclKind → String
  | .set => "set"
  | .let => "let"
  | .const => "const"
  | .global => "global"

/-- The name in tree dumps. -/
def name : DeclKind → String
  | .set => "Set"
  | .let => "Let"
  | .const => "Const"
  | .global => "Global"

@[simp] theorem ofWord?_word (k : DeclKind) : ofWord? k.word = some k := by
  cases k <;> rfl

end DeclKind

end ScriptLang
