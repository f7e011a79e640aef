import ScriptLang.Source.Span
import ScriptLang.Tree.Operator

/-!
# Syntax trees

Programs as trees. Every statement, expression, case and function carries its location.

* `Expr` are the expressions, `Stmt` the statements, `FunctionDef` what both kinds of functions
  share.
* `Program.hasExports` tells whether a file chooses what it exports.
* `Expr.calleeName` is how a called expression is named in messages and call lists.
-/

namespace ScriptLang

/-- A literal value. -/
inductive Literal where
  | number (value : Float)
  | string (value : String)
  | boolean (value : Bool)
  | null
  deriving Inhabited

/-- A flat pattern that takes a container apart. -/
inductive Destructure where
  /-- By position. -/
  | array (names : List String)
  /-- By key. -/
  | object (names : List String)
  deriving DecidableEq, Repr, Inhabited

/-- The names that a pattern binds, in order. -/
def Destructure.names : Destructure → List String
  | .array names => names
  | .object names => names

/-- What a declaration binds. -/
inductive Target where
  | name (name : String)
  | pattern (pattern : Destructure)
  deriving DecidableEq, Repr, Inhabited

/-- The names that a declaration binds, in order. -/
def Target.names : Target → List String
  | .name n => [n]
  | .pattern p => p.names

/-- The pattern of a case. -/
inductive Pattern where
  /-- Matches an equal scalar. -/
  | literal (value : Literal)
  /-- Matches everything and binds it. -/
  | bind (name : String)
  /-- Matches arrays of the same length, element by element. -/
  | array (elements : List Pattern)
  deriving Inhabited

mutual

/-- An expression. -/
inductive Expr where
  | ident (loc : Location) (name : String)
  | literal (loc : Location) (value : Literal)
  | binary (loc : Location) (op : BinaryOp) (left right : Expr)
  | unary (loc : Location) (op : UnaryOp) (operand : Expr)
  | array (loc : Location) (items : List Element)
  | object (loc : Location) (entries : List Entry)
  /-- Member of an object by name; `safe` turns a null object into null. -/
  | property (loc : Location) (object : Expr) (name : String) (safe : Bool)
  /-- Member of a container by key; `safe` turns a null container into null. -/
  | index (loc : Location) (object index : Expr) (safe : Bool)
  /-- Member of a module, as the callee of a call. -/
  | member (loc : Location) (module name : String)
  /-- A call; `safe` turns a null callee into null. -/
  | call (loc : Location) (callee : Expr) (args : List Element) (safe : Bool)
  | template (loc : Location) (parts : List Part)
  | function (loc : Location) (fn : FunctionDef)
  | inlineIf (loc : Location) (cond yes no : Expr)
  /-- A value handed to a function as its first argument. -/
  | pipe (loc : Location) (value callee : Expr) (args : List Element)

/-- An element of an array literal or an argument list. -/
inductive Element where
  | item (value : Expr)
  /-- All elements of an array. -/
  | spread (value : Expr)

/-- An entry of an object literal. -/
inductive Entry where
  | property (key : String) (value : Expr)
  /-- All entries of an object. -/
  | spread (value : Expr)

/-- A part of a template. -/
inductive Part where
  | text (text : String)
  | expr (value : Expr)

/-- A parameter with its default. -/
inductive Param where
  | mk (name : String) (default : Option Expr)

/-- A function: name (if it has one), parameters, rest parameter, body and location. -/
inductive FunctionDef where
  | mk (name : Option String) (params : List Param) (rest : Option String) (body : List Stmt)
    (loc : Location)

/-- What follows a failed condition. -/
inductive Else where
  | nothing
  | block (body : List Stmt)
  /-- Another condition; `next` is always a conditional statement. -/
  | elseIf (next : Stmt)

/-- A case of a match: no pattern for the default case. -/
inductive Case where
  | mk (pattern : Option Pattern) (guard : Option Expr) (body : List Stmt) (loc : Location)

/-- A statement. -/
inductive Stmt where
  | declare (loc : Location) (kind : DeclKind) (target : Target) (value : Expr) (exported : Bool)
  | destructure (loc : Location) (pattern : Destructure) (value : Expr)
  | setProperty (loc : Location) (object : Expr) (name : String) (value : Expr)
  | setIndex (loc : Location) (object index value : Expr)
  | function (loc : Location) (fn : FunctionDef) (exported : Bool)
  | cond (loc : Location) (test : Expr) (yes : List Stmt) (no : Else)
  | guard (loc : Location) (test : Expr) (no : List Stmt)
  /-- Repeats while a condition holds. -/
  | whileLoop (loc : Location) (test : Expr) (body : List Stmt)
  /-- Repeats for every element of an array. -/
  | forEach (loc : Location) (name : String) (iterable : Expr) (body : List Stmt)
  /-- Repeats until it is left. -/
  | loop (loc : Location) (body : List Stmt)
  | labeled (loc : Location) (label : String) (body : Stmt)
  /-- Leaves a loop. -/
  | breakTo (loc : Location) (label : Option String)
  /-- Starts the next round of a loop. -/
  | continueTo (loc : Location) (label : Option String)
  /-- Runs the body, and on an error the handler, which may name the error. -/
  | attempt (loc : Location) (body : List Stmt) (name : Option String)
    (handler : Option (List Stmt))
  /-- Calls, and may bind the result in the current scope. -/
  | call (loc : Location) (callee : Expr) (args : List Element) (dest : Option String)
  /-- Returns from a function. -/
  | giveBack (loc : Location) (value : Option Expr)
  /-- Prints a value. -/
  | print (loc : Location) (value : Expr)
  /-- Raises an error with the text of a value. -/
  | raise (loc : Location) (value : Expr)
  /-- Runs the first case that matches a value. -/
  | choose (loc : Location) (value : Expr) (cases : List Case)
  /-- Imports a module under a name. -/
  | load (loc : Location) (path name : String)
  | expr (loc : Location) (value : Expr)

end

instance : Inhabited Expr := ⟨.literal default .null⟩

instance : Inhabited FunctionDef := ⟨.mk none [] none [] default⟩

instance : Inhabited Stmt := ⟨.expr default default⟩

namespace Param

/-- The name of a parameter. -/
def name : Param → String
  | .mk name _ => name

/-- The default of a parameter. -/
def default? : Param → Option Expr
  | .mk _ value => value

end Param

namespace FunctionDef

/-- The declared name. -/
def name? : FunctionDef → Option String
  | .mk name .. => name

/-- The parameters before the rest parameter. -/
def params : FunctionDef → List Param
  | .mk _ params .. => params

/-- The name of the rest parameter. -/
def rest? : FunctionDef → Option String
  | .mk _ _ rest .. => rest

/-- The body. -/
def body : FunctionDef → List Stmt
  | .mk _ _ _ body _ => body

/-- The location of the word that starts the function. -/
def location : FunctionDef → Location
  | .mk _ _ _ _ loc => loc

/-- The name in call lists and messages. -/
def displayName (f : FunctionDef) : String := f.name?.getD "<anonymous>"

/-- The number of parameters without a default. -/
def required (f : FunctionDef) : Nat := (f.params.filter (·.default?.isNone)).length

end FunctionDef

namespace Expr

/-- The location of an expression. -/
def location : Expr → Location
  | .ident loc _ | .literal loc _ | .binary loc _ _ _ | .unary loc _ _ | .array loc _
  | .object loc _ | .property loc _ _ _ | .index loc _ _ _ | .member loc _ _ | .call loc _ _ _
  | .template loc _ | .function loc _ | .inlineIf loc _ _ _ | .pipe loc _ _ _ => loc

/-- The name of a called expression in messages and call lists. -/
def calleeName : Expr → String
  | .ident _ name => name
  | .member _ module name => s!"{module}.{name}"
  | .property _ base name _ => s!"{base.calleeName}.{name}"
  | .function _ fn => fn.displayName
  | _ => "<expression>"

end Expr

namespace Stmt

/-- The location of a statement. -/
def location : Stmt → Location
  | .declare loc .. | .destructure loc .. | .setProperty loc .. | .setIndex loc ..
  | .function loc .. | .cond loc .. | .guard loc .. | .whileLoop loc .. | .forEach loc ..
  | .loop loc _ | .labeled loc .. | .breakTo loc _ | .continueTo loc _ | .attempt loc ..
  | .call loc .. | .giveBack loc _ | .print loc _ | .raise loc _ | .choose loc .. | .load loc ..
  | .expr loc _ => loc

/-- Whether a statement is an exported declaration. -/
def isExported : Stmt → Bool
  | .declare _ _ _ _ exported => exported
  | .function _ _ exported => exported
  | _ => false

/-- The names that a declaration declares, in order. -/
def declaredNames : Stmt → List String
  | .declare _ _ target _ _ => target.names
  | .function _ fn _ => fn.name?.toList
  | _ => []

end Stmt

/-- A file: its statements and the location of its first token. -/
structure Program where
  statements : List Stmt
  location : Location
  deriving Inhabited

/-- Whether any declaration of the file is exported. -/
def Program.hasExports (p : Program) : Bool := p.statements.any Stmt.isExported

end ScriptLang
