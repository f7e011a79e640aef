import ScriptLang.Tree.Basic

/-!
# Trees without their places

Two programs are equal up to locations if nothing tells them apart once every location in them has
been taken out: those of expressions and statements at every depth, of cases, of functions and of
what is in their defaults and bodies, and that of the program itself.

`Program.placeless`, `Stmt.placeless` and `Expr.placeless` take them out. Unlike `Expr.unlocated`,
which is made for expressions without functions, they go through the bodies of functions as well.
-/

namespace ScriptLang

mutual

/-- The expression without the locations in it. -/
def Expr.placeless : Expr → Expr
  | .ident _ name => .ident default name
  | .literal _ value => .literal default value
  | .binary _ op left right => .binary default op left.placeless right.placeless
  | .unary _ op operand => .unary default op operand.placeless
  | .array _ items => .array default (placelessElements items)
  | .object _ entries => .object default (placelessEntries entries)
  | .property _ base name safe => .property default base.placeless name safe
  | .index _ base key safe => .index default base.placeless key.placeless safe
  | .member _ module name => .member default module name
  | .call _ callee args safe => .call default callee.placeless (placelessElements args) safe
  | .template _ parts => .template default (placelessParts parts)
  | .function _ fn => .function default fn.placeless
  | .inlineIf _ cond yes no => .inlineIf default cond.placeless yes.placeless no.placeless
  | .pipe _ value callee args =>
    .pipe default value.placeless callee.placeless (placelessElements args)

/-- The expression without the locations in it, if there is one. -/
def placelessExpr? : Option Expr → Option Expr
  | none => none
  | some e => some e.placeless

/-- The element without the locations in it. -/
def Element.placeless : Element → Element
  | .item e => .item e.placeless
  | .spread e => .spread e.placeless

/-- Elements without the locations in them. -/
def placelessElements : List Element → List Element
  | [] => []
  | e :: es => e.placeless :: placelessElements es

/-- The entry without the locations in it. -/
def Entry.placeless : Entry → Entry
  | .property key e => .property key e.placeless
  | .spread e => .spread e.placeless

/-- Entries without the locations in them. -/
def placelessEntries : List Entry → List Entry
  | [] => []
  | e :: es => e.placeless :: placelessEntries es

/-- The part of a template without the locations in it. -/
def Part.placeless : Part → Part
  | .text s => .text s
  | .expr e => .expr e.placeless

/-- Parts of a template without the locations in them. -/
def placelessParts : List Part → List Part
  | [] => []
  | p :: ps => p.placeless :: placelessParts ps

/-- The parameter without the locations in its default. -/
def Param.placeless : Param → Param
  | .mk name value => .mk name (placelessExpr? value)

/-- Parameters without the locations in their defaults. -/
def placelessParams : List Param → List Param
  | [] => []
  | p :: ps => p.placeless :: placelessParams ps

/-- The function without the locations in it. -/
def FunctionDef.placeless : FunctionDef → FunctionDef
  | .mk name params rest body _ =>
    .mk name (placelessParams params) rest (placelessStmts body) default

/-- What follows a failed condition, without the locations in it. -/
def Else.placeless : Else → Else
  | .nothing => .nothing
  | .block body => .block (placelessStmts body)
  | .elseIf next => .elseIf next.placeless

/-- The case without the locations in it. -/
def Case.placeless : Case → Case
  | .mk pattern guard body _ =>
    .mk pattern (placelessExpr? guard) (placelessStmts body) default

/-- Cases without the locations in them. -/
def placelessCases : List Case → List Case
  | [] => []
  | c :: cs => c.placeless :: placelessCases cs

/-- The statement without the locations in it. -/
def Stmt.placeless : Stmt → Stmt
  | .declare _ kind target value exported =>
    .declare default kind target value.placeless exported
  | .destructure _ pattern value => .destructure default pattern value.placeless
  | .setProperty _ object name value =>
    .setProperty default object.placeless name value.placeless
  | .setIndex _ object index value =>
    .setIndex default object.placeless index.placeless value.placeless
  | .function _ fn exported => .function default fn.placeless exported
  | .cond _ test yes no =>
    .cond default test.placeless (placelessStmts yes) no.placeless
  | .guard _ test no => .guard default test.placeless (placelessStmts no)
  | .whileLoop _ test body => .whileLoop default test.placeless (placelessStmts body)
  | .forEach _ name iterable body =>
    .forEach default name iterable.placeless (placelessStmts body)
  | .loop _ body => .loop default (placelessStmts body)
  | .labeled _ label body => .labeled default label body.placeless
  | .breakTo _ label => .breakTo default label
  | .continueTo _ label => .continueTo default label
  | .attempt _ body name handler =>
    .attempt default (placelessStmts body) name (placelessHandler handler)
  | .call _ callee args dest =>
    .call default callee.placeless (placelessElements args) dest
  | .giveBack _ value => .giveBack default (placelessExpr? value)
  | .print _ value => .print default value.placeless
  | .raise _ value => .raise default value.placeless
  | .choose _ value cases => .choose default value.placeless (placelessCases cases)
  | .load _ path name => .load default path name
  | .expr _ value => .expr default value.placeless

/-- Statements without the locations in them. -/
def placelessStmts : List Stmt → List Stmt
  | [] => []
  | s :: ss => s.placeless :: placelessStmts ss

/-- The handler without the locations in it, if there is one. -/
def placelessHandler : Option (List Stmt) → Option (List Stmt)
  | none => none
  | some body => some (placelessStmts body)

end

attribute [simp] Expr.placeless placelessExpr? Element.placeless placelessElements Entry.placeless
  placelessEntries Part.placeless placelessParts Param.placeless placelessParams
  FunctionDef.placeless Else.placeless Case.placeless placelessCases Stmt.placeless placelessStmts
  placelessHandler

/-- The program without the locations in it. -/
def Program.placeless (p : Program) : Program := ⟨placelessStmts p.statements, default⟩

end ScriptLang
