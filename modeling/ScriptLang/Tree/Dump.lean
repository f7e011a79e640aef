import ScriptLang.Number.Decimal
import ScriptLang.Text.Quoted
import ScriptLang.Tree.Basic

/-!
# Dumps of syntax trees

A tree as text, for people who want to see how a program was read.

* A `Dump` is a tree of named parts. `Dump.render` writes every part on a line of its own, indented
  by its depth; what has no parts stands on one line.
* `Program.dump` shows a program with all its locations.
-/

namespace ScriptLang

/-- A tree of named parts. -/
inductive Dump where
  | atom (text : String)
  /-- Parts with names. -/
  | fields (name : String) (parts : List (String × Dump))
  /-- Parts in order. -/
  | tuple (name : String) (parts : List Dump)
  | list (items : List Dump)
  deriving Inhabited

namespace Dump

/-- The blanks before a part at a depth. -/
def indent (depth : Nat) : String := "".pushn ' ' (4 * depth)

mutual

/-- The text of a tree at a depth. Its first line is not indented. -/
def renderAt (depth : Nat) : Dump → String
  | atom text => text
  | fields name parts =>
    name ++ " \x7b\n" ++ renderFields (depth + 1) parts ++ indent depth ++ "\x7d"
  | tuple name parts => name ++ "(\n" ++ renderItems (depth + 1) parts ++ indent depth ++ ")"
  | list [] => "[]"
  | list (d :: ds) => "[\n" ++ renderItems (depth + 1) (d :: ds) ++ indent depth ++ "]"

/-- The lines of named parts. -/
def renderFields (depth : Nat) : List (String × Dump) → String
  | [] => ""
  | (name, d) :: rest =>
    indent depth ++ name ++ ": " ++ d.renderAt depth ++ ",\n" ++ renderFields depth rest

/-- The lines of parts in order. -/
def renderItems (depth : Nat) : List Dump → String
  | [] => ""
  | d :: rest => indent depth ++ d.renderAt depth ++ ",\n" ++ renderItems depth rest

end

/-- The text of a tree. -/
def render (d : Dump) : String := d.renderAt 0

/-- A text between quotes. -/
def quoted (s : String) : Dump := atom (Quoted.quote s)

/-- A truth value. -/
def truth (b : Bool) : Dump := atom (if b then "true" else "false")

/-- A part that may be missing. -/
def optional : Option Dump → Dump
  | none => atom "None"
  | some d => tuple "Some" [d]

/-- Names. -/
def names (ns : List String) : Dump := list (ns.map quoted)

/-- A location. -/
def place (loc : Location) : Dump := atom loc.describe

/-- A kind of node with its location. -/
def node (name : String) (kind : Dump) (loc : Location) : Dump :=
  fields name [("kind", kind), ("location", place loc)]

/-- A literal value. -/
def ofLiteral : Literal → Dump
  | .number x => tuple "Number" [atom (Layout.tree.write x)]
  | .string s => tuple "String" [quoted s]
  | .boolean b => tuple "Boolean" [truth b]
  | .null => atom "Null"

/-- A pattern that takes a container apart. -/
def ofDestructure : Destructure → Dump
  | .array ns => tuple "Array" [names ns]
  | .object ns => tuple "Object" [names ns]

/-- What a declaration binds. -/
def ofTarget : Target → Dump
  | .name n => tuple "Name" [quoted n]
  | .pattern p => tuple "Pattern" [ofDestructure p]

mutual

/-- The pattern of a case. -/
def ofPattern : Pattern → Dump
  | .literal v => tuple "Literal" [ofLiteral v]
  | .bind n => tuple "Identifier" [quoted n]
  | .array ps => tuple "Array" [list (ofPatterns ps)]

/-- Patterns in order. -/
def ofPatterns : List Pattern → List Dump
  | [] => []
  | p :: ps => ofPattern p :: ofPatterns ps

end

mutual

/-- An expression. -/
def ofExpr : Expr → Dump
  | .ident loc n => node "Expr" (tuple "Identifier" [quoted n]) loc
  | .literal loc v => node "Expr" (tuple "Literal" [ofLiteral v]) loc
  | .binary loc op l r =>
    node "Expr" (fields "Binary" [("op", atom op.name), ("left", ofExpr l), ("right", ofExpr r)])
      loc
  | .unary loc op x =>
    node "Expr" (fields "Unary" [("op", atom op.name), ("operand", ofExpr x)]) loc
  | .array loc items => node "Expr" (tuple "Array" [list (ofElements items)]) loc
  | .object loc entries => node "Expr" (tuple "Object" [list (ofEntries entries)]) loc
  | .property loc x n safe =>
    node "Expr"
      (fields "PropertyAccess" [("object", ofExpr x), ("property", quoted n), ("safe", truth safe)])
      loc
  | .index loc x i safe =>
    node "Expr"
      (fields "ArrayAccess" [("object", ofExpr x), ("index", ofExpr i), ("safe", truth safe)]) loc
  | .member loc m n =>
    node "Expr" (fields "ModuleAccess" [("module", quoted m), ("property", quoted n)]) loc
  | .call loc f args safe =>
    node "Expr"
      (fields "Call"
        [("callee", ofExpr f), ("arguments", list (ofElements args)), ("safe", truth safe)])
      loc
  | .template loc parts => node "Expr" (tuple "Template" [list (ofParts parts)]) loc
  | .function loc fn => node "Expr" (tuple "Function" [ofFunction fn]) loc
  | .inlineIf loc c y n =>
    node "Expr"
      (fields "InlineIf"
        [("condition", ofExpr c), ("consequent", ofExpr y), ("alternate", ofExpr n)])
      loc
  | .pipe loc x f args =>
    node "Expr"
      (fields "Pipe"
        [("value", ofExpr x), ("callee", ofExpr f), ("arguments", list (ofElements args))])
      loc

/-- An expression that may be missing. -/
def ofExpr? : Option Expr → Dump
  | none => atom "None"
  | some e => tuple "Some" [ofExpr e]

/-- Elements of an array or arguments of a call. -/
def ofElements : List Element → List Dump
  | [] => []
  | .item e :: rest => tuple "Item" [ofExpr e] :: ofElements rest
  | .spread e :: rest => tuple "Spread" [ofExpr e] :: ofElements rest

/-- Entries of an object. -/
def ofEntries : List Entry → List Dump
  | [] => []
  | .property k e :: rest =>
    fields "Property" [("key", quoted k), ("value", ofExpr e)] :: ofEntries rest
  | .spread e :: rest => tuple "Spread" [ofExpr e] :: ofEntries rest

/-- Parts of a template. -/
def ofParts : List Part → List Dump
  | [] => []
  | .text s :: rest => tuple "Text" [quoted s] :: ofParts rest
  | .expr e :: rest => tuple "Expr" [ofExpr e] :: ofParts rest

/-- A function. -/
def ofFunction : FunctionDef → Dump
  | .mk name params rest body loc =>
    fields "FunctionDef"
      [("name", optional (name.map quoted)), ("params", list (ofParams params)),
        ("rest", optional (rest.map quoted)), ("body", list (ofStmts body)),
        ("location", place loc)]

/-- Parameters. -/
def ofParams : List Param → List Dump
  | [] => []
  | .mk n d :: rest => fields "Param" [("name", quoted n), ("default", ofExpr? d)] :: ofParams rest

/-- What follows a failed condition. -/
def ofElse : Else → Dump
  | .nothing => atom "None"
  | .block body => tuple "Some" [tuple "Block" [list (ofStmts body)]]
  | .elseIf next => tuple "Some" [tuple "If" [ofStmt next]]

/-- Cases of a match. -/
def ofCases : List Case → List Dump
  | [] => []
  | .mk p g body loc :: rest =>
    fields "CaseClause"
      [("pattern", optional (p.map ofPattern)), ("guard", ofExpr? g), ("body", list (ofStmts body)),
        ("location", place loc)] :: ofCases rest

/-- A statement. -/
def ofStmt : Stmt → Dump
  | .declare loc kind target e exported =>
    node "Stmt"
      (fields "VariableDeclaration"
        [("kind", atom kind.name), ("target", ofTarget target), ("value", ofExpr e),
          ("is_exported", truth exported)])
      loc
  | .destructure loc p e =>
    node "Stmt"
      (fields "DestructuringAssignment" [("pattern", ofDestructure p), ("value", ofExpr e)]) loc
  | .setProperty loc x n e =>
    node "Stmt"
      (fields "PropertyAssignment"
        [("object", ofExpr x), ("property", quoted n), ("value", ofExpr e)])
      loc
  | .setIndex loc x i e =>
    node "Stmt"
      (fields "BracketAssignment" [("object", ofExpr x), ("index", ofExpr i), ("value", ofExpr e)])
      loc
  | .function loc fn exported =>
    node "Stmt"
      (fields "FunctionDeclaration" [("function", ofFunction fn), ("is_exported", truth exported)])
      loc
  | .cond loc c yes no =>
    node "Stmt"
      (fields "If"
        [("condition", ofExpr c), ("consequent", list (ofStmts yes)), ("alternate", ofElse no)])
      loc
  | .guard loc c no =>
    node "Stmt" (fields "Guard" [("condition", ofExpr c), ("alternate", list (ofStmts no))]) loc
  | .whileLoop loc c body =>
    node "Stmt" (fields "While" [("condition", ofExpr c), ("body", list (ofStmts body))]) loc
  | .forEach loc n e body =>
    node "Stmt"
      (fields "For" [("variable", quoted n), ("iterable", ofExpr e), ("body", list (ofStmts body))])
      loc
  | .loop loc body => node "Stmt" (fields "Loop" [("body", list (ofStmts body))]) loc
  | .labeled loc l body =>
    node "Stmt" (fields "Labeled" [("label", quoted l), ("body", ofStmt body)]) loc
  | .breakTo loc l => node "Stmt" (fields "Break" [("label", optional (l.map quoted))]) loc
  | .continueTo loc l => node "Stmt" (fields "Continue" [("label", optional (l.map quoted))]) loc
  | .attempt loc body n handler =>
    node "Stmt"
      (fields "Try"
        [("body", list (ofStmts body)), ("catch_var", optional (n.map quoted)),
          ("catch_body", ofHandler handler)])
      loc
  | .call loc f args dest =>
    node "Stmt"
      (fields "Call"
        [("callee", ofExpr f), ("arguments", list (ofElements args)),
          ("destination", optional (dest.map quoted))])
      loc
  | .giveBack loc e => node "Stmt" (fields "Return" [("value", ofExpr? e)]) loc
  | .print loc e => node "Stmt" (fields "Show" [("value", ofExpr e)]) loc
  | .raise loc e => node "Stmt" (fields "Throw" [("value", ofExpr e)]) loc
  | .choose loc e cases =>
    node "Stmt" (fields "Match" [("discriminant", ofExpr e), ("cases", list (ofCases cases))]) loc
  | .load loc path name =>
    node "Stmt" (fields "Import" [("path", quoted path), ("alias", quoted name)]) loc
  | .expr loc e => node "Stmt" (tuple "Expression" [ofExpr e]) loc

/-- A handler of errors. -/
def ofHandler : Option (List Stmt) → Dump
  | none => atom "None"
  | some body => tuple "Some" [list (ofStmts body)]

/-- Statements in order. -/
def ofStmts : List Stmt → List Dump
  | [] => []
  | s :: rest => ofStmt s :: ofStmts rest

end

end Dump

/-- The dump of a program. -/
def Program.dump (p : Program) : String :=
  (Dump.fields "Program"
    [("statements", .list (Dump.ofStmts p.statements)), ("location", .place p.location)]).render

end ScriptLang
