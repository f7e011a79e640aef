import Mathlib.Logic.Relation
import ScriptLang.Proofs.LocatedTrees

/-!
# Constructs and how they lie in the tokens

A construct is a piece of a program that the grammar has a rule for: an expression, a statement, a
case or a function, or one of the lists and branches that these are made of.

* `Construct.children` are the constructs directly inside a construct. Lists are taken apart one
  element at a time. Nothing is left out: defaults of parameters, arguments, interpolations, guards
  and all bodies are reached.
* `Construct.Has` and `Program.Has` reach the constructs at every depth.
* `Construct.callee` sets the positions apart in which a function is only named: the callee of a
  call statement, of a call that is not safe, and of a pipe. Every other expression is a
  `Construct.expr`.

`Construct.Occupies` says which tokens a construct is made of, those from one place up to another,
and at which of them its location is. There is a rule for each way to write a construct down. Each
rule gives a construct its own tokens and the stretches of the constructs inside it, one after the
other, so the tokens of a construct are neither too few nor too many, and there is no choice about
its location.

Of tokens only the places are known here. Where a rule stands for some of its own tokens by an
inequality, these are the separators and the rest parameter of a parameter list, or the pattern of a
case; no location is at any of them.

* `Occupies.lt`, `Occupies.le`: what has a location takes a token or more.
* `Occupies.location`: the location of a construct is that of a token of it.
* `Occupies.child`: the constructs inside a construct lie inside its stretch.
-/

namespace ScriptLang

/-- A piece of a program. -/
inductive Construct where
  | expr (e : Expr)
  /-- The function that a call or a pipe names. -/
  | callee (e : Expr)
  /-- The elements of an array literal or of an argument list. -/
  | elements (es : List Element)
  | entries (es : List Entry)
  | parts (ps : List Part)
  /-- Parameters; `defaulted` tells whether one with a default stands before them. -/
  | params (defaulted : Bool) (ps : List Param)
  | function (fn : FunctionDef)
  | stmt (s : Stmt)
  | stmts (body : List Stmt)
  /-- What follows a failed condition. -/
  | otherwise (no : Else)
  | case (c : Case)
  | cases (cs : List Case)

namespace Expr

/-- Whether an expression names a function: by its name, or as the member of a module. -/
def isReference : Expr → Bool
  | .ident .. | .member .. => true
  | _ => false

/-- Whether an expression chooses between two functions. -/
def isChoice : Expr → Bool
  | .inlineIf .. => true
  | _ => false

/-- Whether an expression is the member of a module. -/
def isMember : Expr → Bool
  | .member .. => true
  | _ => false

/-- The constructs directly inside an expression. -/
def constructs : Expr → List Construct
  | .ident .. | .literal .. | .member .. => []
  | .binary _ _ left right => [.expr left, .expr right]
  | .unary _ _ operand => [.expr operand]
  | .array _ items => [.elements items]
  | .object _ entries => [.entries entries]
  | .property _ base _ _ => [.expr base]
  | .index _ base key _ => [.expr base, .expr key]
  | .call _ callee args safe =>
    [if safe then .expr callee else .callee callee, .elements args]
  | .template _ parts => [.parts parts]
  | .function _ fn => [.function fn]
  | .inlineIf _ cond yes no => [.expr cond, .expr yes, .expr no]
  | .pipe _ value callee args => [.expr value, .callee callee, .elements args]

end Expr

namespace Stmt

/-- Whether a statement is a conditional. -/
def isConditional : Stmt → Bool
  | .cond .. => true
  | _ => false

/-- The constructs directly inside a statement. -/
def constructs : Stmt → List Construct
  | .declare _ _ _ value _ | .destructure _ _ value | .print _ value | .raise _ value
  | .expr _ value => [.expr value]
  | .setProperty _ object _ value => [.expr object, .expr value]
  | .setIndex _ object index value => [.expr object, .expr index, .expr value]
  | .function _ fn _ => [.function fn]
  | .cond _ test yes no => [.expr test, .stmts yes, .otherwise no]
  | .guard _ test body | .whileLoop _ test body | .forEach _ _ test body =>
    [.expr test, .stmts body]
  | .loop _ body => [.stmts body]
  | .labeled _ _ body => [.stmt body]
  | .breakTo .. | .continueTo .. | .load .. => []
  | .attempt _ body _ handler => .stmts body :: handler.toList.map .stmts
  | .call _ callee args _ => [.callee callee, .elements args]
  | .giveBack _ value => value.toList.map .expr
  | .choose _ value cases => [.expr value, .cases cases]

end Stmt

namespace Construct

/-- The constructs directly inside a construct. -/
def children : Construct → List Construct
  | .expr e | .callee e => e.constructs
  | .elements [] | .entries [] | .parts [] | .params _ [] | .stmts [] | .cases [] => []
  | .elements (e :: es) => [.expr e.value, .elements es]
  | .entries (e :: es) => [.expr e.value, .entries es]
  | .parts (p :: ps) => p.value?.toList.map .expr ++ [.parts ps]
  | .params defaulted (p :: ps) =>
    p.default?.toList.map .expr ++ [.params (defaulted || p.default?.isSome) ps]
  | .function fn => [.params false fn.params, .stmts fn.body]
  | .stmt s => s.constructs
  | .stmts (s :: ss) => [.stmt s, .stmts ss]
  | .otherwise .nothing => []
  | .otherwise (.block body) => [.stmts body]
  | .otherwise (.elseIf next) => [.stmt next]
  | .case c => c.guard?.toList.map .expr ++ [.stmts c.body]
  | .cases (c :: cs) => [.case c, .cases cs]

/-- A construct has itself, the constructs directly inside it, those inside these, and so on. -/
def Has : Construct → Construct → Prop := Relation.ReflTransGen fun p q => q ∈ p.children

/-- The location of an expression, a statement, a case or a function. -/
def location? : Construct → Option Location
  | .expr e | .callee e => some e.location
  | .function fn => some fn.location
  | .stmt s => some s.location
  | .case c => some c.location
  | _ => none

end Construct

/-- What a program has. -/
def Program.Has (p : Program) (f : Construct) : Prop := (Construct.stmts p.statements).Has f

/-- A list of statements has each of them. -/
theorem Construct.has_of_mem {s : Stmt} {ss : List Stmt} (h : s ∈ ss) :
    (Construct.stmts ss).Has (.stmt s) := by
  induction ss with
  | nil => cases h
  | cons s' ss ih =>
    obtain rfl | h := List.mem_cons.mp h
    · exact .single List.mem_cons_self
    · exact .head (List.mem_cons_of_mem _ List.mem_cons_self) (ih h)

end ScriptLang

namespace ScriptLang

/-! ### Widths -/

/-- The number of tokens of a flat pattern: brackets, names and the commas between them. -/
def Destructure.width (p : Destructure) : Nat := 2 + (2 * p.names.length - 1)

/-- The number of tokens of what a declaration binds. -/
def Target.width : Target → Nat
  | .name _ => 1
  | .pattern p => p.width

/-- The number of tokens before the expression of an element: the dots of a spread. -/
def Element.lead : Element → Nat
  | .item _ => 0
  | .spread _ => 1

/-- The number of tokens before the expression of an entry: a key with its colon, or the dots of a
spread. -/
def Entry.lead : Entry → Nat
  | .property .. => 2
  | .spread _ => 1

/-- The number of tokens that export a declaration. -/
def exportLead (exported : Bool) : Nat := if exported then 1 else 0

namespace Construct

/-! ### The relation -/

variable (place : Nat → Location)

/-- **Occupies.** The construct is made of the tokens from the first place up to the second one,
which is not included. `place k` is the location of the token at place `k`. -/
inductive Occupies : Construct → Nat → Nat → Prop
  -- Expressions
  | ident {i : Nat} (name : String) : Occupies (.expr (.ident (place i) name)) i (i + 1)
  | literal {i : Nat} (value : Literal) : Occupies (.expr (.literal (place i) value)) i (i + 1)
  | group {e : Expr} {i j : Nat} (inner : Occupies (.expr e) (i + 1) j) :
    Occupies (.expr e) i (j + 1)
  | binary {op : BinaryOp} {left right : Expr} {i j k : Nat}
    (left_ : Occupies (.expr left) (i + 1) j) (right_ : Occupies (.expr right) j k) :
    Occupies (.expr (.binary (place i) op left right)) i k
  | unary {op : UnaryOp} {e : Expr} {i j : Nat} (operand : Occupies (.expr e) (i + 1) j) :
    Occupies (.expr (.unary (place i) op e)) i j
  | array {items : List Element} {i j : Nat} (inner : Occupies (.elements items) (i + 1) j) :
    Occupies (.expr (.array (place i) items)) i (j + 1)
  | object {items : List Entry} {i j : Nat} (inner : Occupies (.entries items) (i + 1) j) :
    Occupies (.expr (.object (place i) items)) i (j + 1)
  | template {ps : List Part} {i j : Nat} (inner : Occupies (.parts ps) (i + 1) j) :
    Occupies (.expr (.template (place i) ps)) i (j + 1)
  | lambda {fn : FunctionDef} {i j : Nat} (here : fn.location = place i)
    (inner : Occupies (.function fn) i j) : Occupies (.expr (.function (place i) fn)) i j
  -- Members, after the expression that they are members of
  | property {base : Expr} {name : String} {safe : Bool} {i j : Nat}
    (object : Occupies (.expr base) i j) :
    Occupies (.expr (.property (place (j + 1)) base name safe)) i (j + 2)
  | index {base key : Expr} {i j k : Nat} (object : Occupies (.expr base) i j)
    (key_ : Occupies (.expr key) (j + 1) k) :
    Occupies (.expr (.index (place j) base key false)) i (k + 1)
  | safeIndex {base key : Expr} {i j k : Nat} (object : Occupies (.expr base) i j)
    (key_ : Occupies (.expr key) (j + 2) k) :
    Occupies (.expr (.index (place j) base key true)) i (k + 1)
  | safeCall {base : Expr} {args : List Element} {i j k : Nat}
    (object : Occupies (.expr base) i j) (args_ : Occupies (.elements args) (j + 2) k) :
    Occupies (.expr (.call (place j) base args true)) i (k + 1)
  -- Calls and pipes
  | reference {i : Nat} (name : String) : Occupies (.callee (.ident (place i) name)) i (i + 1)
  | member {i : Nat} (module name : String) :
    Occupies (.callee (.member (place i) module name)) i (i + 3)
  | choice {cond yes no : Expr} {i j k l : Nat} (cond_ : Occupies (.expr cond) (i + 1) j)
    (yes_ : Occupies (.expr yes) (j + 1) k) (no_ : Occupies (.expr no) (k + 1) l) :
    Occupies (.callee (.inlineIf (place i) cond yes no)) i l
  | call {callee : Expr} {args : List Element} {i j k : Nat} (named : callee.isReference)
    (callee_ : Occupies (.callee callee) (i + 1) j) (args_ : Occupies (.elements args) (j + 1) k) :
    Occupies (.expr (.call (place i) callee args false)) i (k + 1)
  | pipe {value callee : Expr} {i j k : Nat} (value_ : Occupies (.expr value) i j)
    (callee_ : Occupies (.callee callee) (j + 1) k) :
    Occupies (.expr (.pipe (place j) value callee [])) i k
  | pipeCall {value callee : Expr} {args : List Element} {i j k l : Nat}
    (named : callee.isReference) (value_ : Occupies (.expr value) i j)
    (callee_ : Occupies (.callee callee) (j + 1) k) (args_ : Occupies (.elements args) (k + 1) l) :
    Occupies (.expr (.pipe (place j) value callee args)) i (l + 1)
  -- Elements, entries and the parts of templates
  | noElements {i : Nat} : Occupies (.elements []) i i
  | element {e : Element} {i j : Nat} (value : Occupies (.expr e.value) (i + e.lead) j) :
    Occupies (.elements [e]) i j
  | elements {e : Element} {es : List Element} {i j k : Nat}
    (value : Occupies (.expr e.value) (i + e.lead) j) (others : Occupies (.elements es) (j + 1) k) :
    Occupies (.elements (e :: es)) i k
  | noEntries {i : Nat} : Occupies (.entries []) i i
  | entry {e : Entry} {i j : Nat} (value : Occupies (.expr e.value) (i + e.lead) j) :
    Occupies (.entries [e]) i j
  | entries {e : Entry} {es : List Entry} {i j k : Nat}
    (value : Occupies (.expr e.value) (i + e.lead) j) (others : Occupies (.entries es) (j + 1) k) :
    Occupies (.entries (e :: es)) i k
  | noParts {i : Nat} : Occupies (.parts []) i i
  | emptyText {ps : List Part} {i j : Nat} (others : Occupies (.parts ps) (i + 1) j) :
    Occupies (.parts ps) i j
  | text {ps : List Part} {s : String} {i j : Nat} (others : Occupies (.parts ps) (i + 1) j) :
    Occupies (.parts (.text s :: ps)) i j
  | interpolation {ps : List Part} {e : Expr} {i j k : Nat} (value : Occupies (.expr e) (i + 1) j)
    (others : Occupies (.parts ps) (j + 1) k) : Occupies (.parts (.expr e :: ps)) i k
  -- Functions
  | noParams {defaulted : Bool} {i : Nat} : Occupies (.params defaulted []) i i
  | param {name : String} {ps : List Param} {i j k : Nat} (gap : i + 1 ≤ j ∧ j ≤ i + 2)
    (others : Occupies (.params false ps) j k) : Occupies (.params false (.mk name none :: ps)) i k
  | defaultParam {defaulted : Bool} {name : String} {e : Expr} {ps : List Param} {i j k l : Nat}
    (value : Occupies (.expr e) (i + 2) j) (gap : j ≤ k ∧ k ≤ j + 1)
    (others : Occupies (.params true ps) k l) :
    Occupies (.params defaulted (.mk name (some e) :: ps)) i l
  | function {name : Option String} {ps : List Param} {rest : Option String} {body : List Stmt}
    {i j k l m : Nat} (head : i + 1 ≤ j ∧ j ≤ i + 3) (params : Occupies (.params false ps) j k)
    (close : k ≤ l ∧ l ≤ k + 3) (body_ : Occupies (.stmts body) l m) :
    Occupies (.function (.mk name ps rest body (place i))) i (m + 1)
  -- Statements
  | noStmts {i : Nat} : Occupies (.stmts []) i i
  | stmts {s : Stmt} {ss : List Stmt} {i j k : Nat} (first : Occupies (.stmt s) i j)
    (others : Occupies (.stmts ss) j k) : Occupies (.stmts (s :: ss)) i k
  | declare {kind : DeclKind} {target : Target} {value : Expr} {exported : Bool} {i j : Nat}
    (value_ : Occupies (.expr value) (i + exportLead exported + 1 + target.width) j) :
    Occupies (.stmt (.declare (place i) kind target value exported)) i j
  | destructure {pattern : Destructure} {value : Expr} {i j : Nat}
    (value_ : Occupies (.expr value) (i + 1 + pattern.width + 1) j) :
    Occupies (.stmt (.destructure (place i) pattern value)) i j
  | setProperty {object value : Expr} {name : String} {exported : Bool} {i j k : Nat}
    (object_ : Occupies (.expr object) (i + exportLead exported + 1) j)
    (value_ : Occupies (.expr value) (j + 2) k) :
    Occupies (.stmt (.setProperty (place i) object name value)) i k
  | setIndex {object key value : Expr} {exported : Bool} {i j k l : Nat}
    (object_ : Occupies (.expr object) (i + exportLead exported + 1) j)
    (key_ : Occupies (.expr key) (j + 1) k) (value_ : Occupies (.expr value) (k + 1) l) :
    Occupies (.stmt (.setIndex (place i) object key value)) i l
  | declareFunction {fn : FunctionDef} {exported : Bool} {i j : Nat}
    (inner : Occupies (.function fn) (i + exportLead exported) j) :
    Occupies (.stmt (.function (place i) fn exported)) i j
  | cond {test : Expr} {yes : List Stmt} {no : Else} {i j k l : Nat}
    (test_ : Occupies (.expr test) (i + 1) j) (yes_ : Occupies (.stmts yes) j k)
    (no_ : Occupies (.otherwise no) k l) : Occupies (.stmt (.cond (place i) test yes no)) i l
  | nothing {i : Nat} : Occupies (.otherwise .nothing) i (i + 1)
  | block {body : List Stmt} {i j : Nat} (body_ : Occupies (.stmts body) (i + 1) j) :
    Occupies (.otherwise (.block body)) i (j + 1)
  | elseIf {next : Stmt} {i j : Nat} (conditional : next.isConditional)
    (next_ : Occupies (.stmt next) (i + 1) j) : Occupies (.otherwise (.elseIf next)) i j
  | guard {test : Expr} {body : List Stmt} {i j k : Nat} (test_ : Occupies (.expr test) (i + 1) j)
    (body_ : Occupies (.stmts body) (j + 1) k) :
    Occupies (.stmt (.guard (place i) test body)) i (k + 1)
  | whileLoop {test : Expr} {body : List Stmt} {i j k : Nat}
    (test_ : Occupies (.expr test) (i + 1) j) (body_ : Occupies (.stmts body) j k) :
    Occupies (.stmt (.whileLoop (place i) test body)) i (k + 1)
  | forEach {name : String} {iterable : Expr} {body : List Stmt} {i j k : Nat}
    (iterable_ : Occupies (.expr iterable) (i + 3) j) (body_ : Occupies (.stmts body) j k) :
    Occupies (.stmt (.forEach (place i) name iterable body)) i (k + 1)
  | loop {body : List Stmt} {i j : Nat} (body_ : Occupies (.stmts body) (i + 1) j) :
    Occupies (.stmt (.loop (place i) body)) i (j + 1)
  | labeled {label : String} {body : Stmt} {i j : Nat} (body_ : Occupies (.stmt body) (i + 2) j) :
    Occupies (.stmt (.labeled (place i) label body)) i j
  | breakTo {label : Option String} {i : Nat} :
    Occupies (.stmt (.breakTo (place i) label)) i (i + 1 + label.toList.length)
  | continueTo {label : Option String} {i : Nat} :
    Occupies (.stmt (.continueTo (place i) label)) i (i + 1 + label.toList.length)
  | attempt {body : List Stmt} {i j : Nat} (body_ : Occupies (.stmts body) (i + 1) j) :
    Occupies (.stmt (.attempt (place i) body none none)) i (j + 1)
  | attemptCatch {body handler : List Stmt} {name : Option String} {i j k : Nat}
    (body_ : Occupies (.stmts body) (i + 1) j)
    (handler_ : Occupies (.stmts handler) (j + 1 + name.toList.length) k) :
    Occupies (.stmt (.attempt (place i) body name (some handler))) i (k + 1)
  | callStatement {callee : Expr} {args : List Element} {dest : Option String} {i j k : Nat}
    (named : callee.isReference) (callee_ : Occupies (.callee callee) (i + 1) j)
    (args_ : Occupies (.elements args) (j + 1) k) :
    Occupies (.stmt (.call (place i) callee args dest)) i (k + 1 + 2 * dest.toList.length)
  | giveBackNothing {i : Nat} : Occupies (.stmt (.giveBack (place i) none)) i (i + 1)
  | giveBack {value : Expr} {i j : Nat} (value_ : Occupies (.expr value) (i + 1) j) :
    Occupies (.stmt (.giveBack (place i) (some value))) i j
  | print {value : Expr} {i j : Nat} (value_ : Occupies (.expr value) (i + 1) j) :
    Occupies (.stmt (.print (place i) value)) i j
  | raise {value : Expr} {i j : Nat} (value_ : Occupies (.expr value) (i + 1) j) :
    Occupies (.stmt (.raise (place i) value)) i j
  | choose {value : Expr} {cs : List Case} {i j k : Nat} (some : cs ≠ [])
    (value_ : Occupies (.expr value) (i + 1) j) (cases_ : Occupies (.cases cs) j k) :
    Occupies (.stmt (.choose (place i) value cs)) i (k + 1)
  | load {path name : String} {i j : Nat} (width : j = i + 4 ∨ j = i + 6) :
    Occupies (.stmt (.load (place i) path name)) i j
  | exprStatement {e : Expr} {i j : Nat} (inner : Occupies (.expr e) i j) :
    Occupies (.stmt (.expr e.location e)) i j
  -- Cases
  | noCases {i : Nat} : Occupies (.cases []) i i
  | cases {c : Case} {cs : List Case} {i j k : Nat} (first : Occupies (.case c) i j)
    (others : Occupies (.cases cs) j k) : Occupies (.cases (c :: cs)) i k
  | defaultCase {body : List Stmt} {i j : Nat} (body_ : Occupies (.stmts body) (i + 2) j) :
    Occupies (.case (.mk none none body (place i))) i j
  | patternCase {pattern : Pattern} {body : List Stmt} {i j k : Nat} (width : i + 2 ≤ j)
    (body_ : Occupies (.stmts body) (j + 1) k) :
    Occupies (.case (.mk (some pattern) none body (place i))) i k
  | guardCase {pattern : Pattern} {guard : Expr} {body : List Stmt} {i j k l : Nat}
    (width : i + 3 ≤ j) (guard_ : Occupies (.expr guard) j k)
    (body_ : Occupies (.stmts body) (k + 1) l) :
    Occupies (.case (.mk (some pattern) (some guard) body (place i))) i l

/-! ### Places inside a stretch -/

namespace Occupies

variable {place} {f : Construct} {i j : Nat}

/-- A stretch does not end before it begins, and what has a location has a token. -/
theorem extent (h : Occupies place f i j) : i ≤ j ∧ (f.location?.isSome → i < j) := by
  induction h with
  | exprStatement _ ih | lambda _ _ ih => exact ⟨ih.1, fun _ => ih.2 rfl⟩
  | _ => simp only [location?, Option.isSome_some, Option.isSome_none, forall_const,
      Bool.false_eq_true, false_imp_iff, and_true] at *; omega

theorem le (h : Occupies place f i j) : i ≤ j := h.extent.1

theorem lt (h : Occupies place f i j) (hf : f.location?.isSome) : i < j := h.extent.2 hf

/-- The location of a construct is that of a token of it. -/
theorem location {loc : Location} (h : Occupies place f i j) (hloc : f.location? = some loc) :
    ∃ k, i ≤ k ∧ k < j ∧ place k = loc := by
  have hlt : i < j := h.lt (by simp [hloc])
  induction h with
  | group inner ih =>
    obtain ⟨k, hk, hkj, h⟩ := ih hloc (inner.lt rfl)
    exact ⟨k, by omega, by omega, h⟩
  | exprStatement inner ih => exact ih hloc hlt
  -- Members and pipes are located behind the expression that they begin with.
  | property object =>
    exact ⟨_, by have := object.le; omega, by omega, Option.some.inj hloc⟩
  | index object key | safeIndex object key =>
    exact ⟨_, object.le, by have := key.le; omega, Option.some.inj hloc⟩
  | safeCall object args =>
    exact ⟨_, object.le, by have := args.le; omega, Option.some.inj hloc⟩
  | pipe value callee =>
    exact ⟨_, value.le, by have := callee.le; omega, Option.some.inj hloc⟩
  | pipeCall _ value callee args =>
    exact ⟨_, value.le, by have := callee.le; have := args.le; omega, Option.some.inj hloc⟩
  | _ =>
    first
    | exact ⟨_, Nat.le_refl _, hlt, Option.some.inj hloc⟩
    | cases hloc

end Occupies

/-! ### Constructs inside a stretch -/

/-- The construct is made of tokens inside a stretch. -/
def Within (i j : Nat) (c : Construct) : Prop := ∃ k l, i ≤ k ∧ l ≤ j ∧ Occupies place c k l

section Lists

variable {place} {i j : Nat} {a b c : Construct}

theorem Within.mono {i' j' : Nat} (h : a.Within place i j) (hi : i' ≤ i) (hj : j ≤ j') :
    a.Within place i' j' := by
  obtain ⟨k, l, hk, hl, ha⟩ := h
  exact ⟨k, l, Nat.le_trans hi hk, Nat.le_trans hl hj, ha⟩

theorem within_one (ha : a.Within place i j) : ∀ f ∈ [a], f.Within place i j :=
  List.forall_mem_singleton.mpr ha

theorem within_two (ha : a.Within place i j) (hb : b.Within place i j) :
    ∀ f ∈ [a, b], f.Within place i j :=
  List.forall_mem_cons.mpr ⟨ha, within_one hb⟩

theorem within_three (ha : a.Within place i j) (hb : b.Within place i j)
    (hc : c.Within place i j) : ∀ f ∈ [a, b, c], f.Within place i j :=
  List.forall_mem_cons.mpr ⟨ha, within_two hb hc⟩

end Lists

/-- **Children.** What is directly inside a construct lies inside its stretch. -/
theorem Occupies.children {place : Nat → Location} {f : Construct} {i j : Nat}
    (h : Occupies place f i j) : ∀ c ∈ f.children, c.Within place i j := by
  induction h with
  | ident | literal | reference | member | noElements | noEntries | noParts | noParams | noStmts
  | noCases | nothing | breakTo | continueTo | giveBackNothing | load =>
    exact List.forall_mem_nil _
  -- The parentheses and the empty text are tokens more around the same children.
  | group _ ih | emptyText _ ih =>
    exact fun c hc => (ih c hc).mono (by omega) (by omega)
  | unary a | array a | object a | template a | lambda _ a | text a | declare a | destructure a
  | declareFunction a | block a | elseIf _ a | loop a | labeled a | attempt a | giveBack a
  | print a | raise a | exprStatement a | defaultCase a | property a =>
    exact within_one ⟨_, _, by omega, by omega, a⟩
  | patternCase _ a => exact within_one ⟨_, _, by omega, by omega, a⟩
  | param _ a => exact within_one ⟨_, _, by omega, by omega, a⟩
  | element a =>
    have := a.le
    exact within_two ⟨_, _, by omega, Nat.le_refl _, a⟩
      ⟨_, _, by omega, Nat.le_refl _, .noElements⟩
  | entry a =>
    have := a.le
    exact within_two ⟨_, _, by omega, Nat.le_refl _, a⟩
      ⟨_, _, by omega, Nat.le_refl _, .noEntries⟩
  | binary a b | index a b | safeIndex a b | safeCall a b | call _ a b | elements a b | entries a b
  | interpolation a b | stmts a b | setProperty a b | guard a b | whileLoop a b | forEach a b
  | attemptCatch a b | callStatement _ a b | choose _ a b | cases a b =>
    have := a.le
    have := b.le
    exact within_two ⟨_, _, by omega, by omega, a⟩ ⟨_, _, by omega, by omega, b⟩
  | choice a b c | setIndex a b c | cond a b c | pipeCall _ a b c =>
    have := a.le
    have := b.le
    have := c.le
    exact within_three ⟨_, _, by omega, by omega, a⟩ ⟨_, _, by omega, by omega, b⟩
      ⟨_, _, by omega, by omega, c⟩
  -- A pipe without arguments has an empty list of them.
  | pipe a b =>
    have := a.le
    have := b.le
    exact within_three ⟨_, _, by omega, by omega, a⟩ ⟨_, _, by omega, by omega, b⟩
      ⟨_, _, by omega, Nat.le_refl _, .noElements⟩
  | defaultParam a gap b =>
    have ha := a.le
    have hb := b.le
    exact within_two ⟨_, _, by omega, by omega, a⟩
      ⟨_, _, Nat.le_trans (by omega) gap.1, Nat.le_refl _, (Bool.or_true _).symm ▸ b⟩
  | function _ a _ b =>
    have := a.le
    have := b.le
    exact within_two ⟨_, _, by omega, by omega, a⟩ ⟨_, _, by omega, by omega, b⟩
  | guardCase _ a b =>
    have := a.le
    have := b.le
    exact within_two ⟨_, _, by omega, by omega, a⟩ ⟨_, _, by omega, by omega, b⟩

/-- **Constructs everywhere.** What a construct has, at every depth, lies inside its stretch. -/
theorem Occupies.has {place : Nat → Location} {f c : Construct} {i j : Nat}
    (h : Occupies place f i j) (hc : f.Has c) : c.Within place i j := by
  induction hc with
  | refl => exact ⟨i, j, Nat.le_refl _, Nat.le_refl _, h⟩
  | tail _ hlast ih =>
    obtain ⟨k, l, hk, hl, hmiddle⟩ := ih
    exact (hmiddle.children _ hlast).mono hk hl

end Construct
end ScriptLang
