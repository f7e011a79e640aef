import ScriptLang.Tree.Basic

/-!
# Parts of expressions

* `Expr.parts` are the expressions directly inside an expression. A function has none: what is in it
  belongs to the function.
* `Expr.FunctionFree` holds of the expressions with no function literal in them.
* `Expr.unlocated` is an expression without its places: two expressions are the same up to locations
  exactly if it makes them equal.
-/

namespace ScriptLang

/-- The expression of an element. -/
def Element.value : Element → Expr
  | .item e | .spread e => e

/-- The expression of an entry. -/
def Entry.value : Entry → Expr
  | .property _ e | .spread e => e

/-- The expression of a part of a template, if it is an interpolation. -/
def Part.value? : Part → Option Expr
  | .text _ => none
  | .expr e => some e

namespace Expr

/-- The expressions directly inside an expression. -/
def parts : Expr → List Expr
  | .ident .. | .literal .. | .member .. | .function .. => []
  | .binary _ _ left right => [left, right]
  | .unary _ _ operand => [operand]
  | .array _ items => items.map Element.value
  | .object _ entries => entries.map Entry.value
  | .property _ base _ _ => [base]
  | .index _ base key _ => [base, key]
  | .call _ callee args _ => callee :: args.map Element.value
  | .template _ parts => parts.filterMap Part.value?
  | .inlineIf _ cond yes no => [cond, yes, no]
  | .pipe _ value callee args => value :: callee :: args.map Element.value

/-- There is no function literal in the expression. -/
inductive FunctionFree : Expr → Prop where
  | intro {e : Expr} : (∀ loc fn, e ≠ .function loc fn) → (∀ e' ∈ e.parts, FunctionFree e') →
      FunctionFree e

theorem FunctionFree.part {e e' : Expr} (h : e.FunctionFree) (he : e' ∈ e.parts) :
    e'.FunctionFree := by
  cases h with
  | intro _ hp => exact hp e' he

end Expr

mutual

/-- The expression without its places. Functions are left as they are. -/
def Expr.unlocated : Expr → Expr
  | .ident _ name => .ident default name
  | .literal _ value => .literal default value
  | .binary _ op left right => .binary default op left.unlocated right.unlocated
  | .unary _ op operand => .unary default op operand.unlocated
  | .array _ items => .array default (unlocatedElements items)
  | .object _ entries => .object default (unlocatedEntries entries)
  | .property _ base name safe => .property default base.unlocated name safe
  | .index _ base key safe => .index default base.unlocated key.unlocated safe
  | .member _ module name => .member default module name
  | .call _ callee args safe => .call default callee.unlocated (unlocatedElements args) safe
  | .template _ parts => .template default (unlocatedParts parts)
  | .function loc fn => .function loc fn
  | .inlineIf _ cond yes no => .inlineIf default cond.unlocated yes.unlocated no.unlocated
  | .pipe _ value callee args =>
    .pipe default value.unlocated callee.unlocated (unlocatedElements args)

/-- The element without its places. -/
def Element.unlocated : Element → Element
  | .item e => .item e.unlocated
  | .spread e => .spread e.unlocated

/-- The entry without its places. -/
def Entry.unlocated : Entry → Entry
  | .property key e => .property key e.unlocated
  | .spread e => .spread e.unlocated

/-- The part of a template without its places. -/
def Part.unlocated : Part → Part
  | .text s => .text s
  | .expr e => .expr e.unlocated

/-- Elements without their places. -/
def unlocatedElements : List Element → List Element
  | [] => []
  | e :: es => e.unlocated :: unlocatedElements es

/-- Entries without their places. -/
def unlocatedEntries : List Entry → List Entry
  | [] => []
  | e :: es => e.unlocated :: unlocatedEntries es

/-- Parts of a template without their places. -/
def unlocatedParts : List Part → List Part
  | [] => []
  | p :: ps => p.unlocated :: unlocatedParts ps

end

end ScriptLang
