import ScriptLang.Value.Heap
import ScriptLang.Text.Quoted

/-!
# Scopes

The scopes of a run form a tree: every scope but the root has one parent, fixed when it is made. A
table of `Scopes` holds them all, parents before children.

* `Scopes.lookup?` finds the nearest binding of a name from a scope outward.
* `Scopes.define` makes a binding; only a `set` binding may be made again, by `set`.
* `Scopes.assign` changes the nearest binding, unless it is constant.
* `Scopes.setVariable` is the rule of the word `set`: it changes the nearest binding up to the scope
  of the file, and makes a new one if there is none.
* Each of these plans a `ScopeWrite` and carries it out (`Scopes.perform`). A plan that fails leaves
  the table as it was; its error is a `ScopeError`.
-/

namespace ScriptLang

/-- What a scope belongs to. -/
inductive ScopeRole where
  /-- The root, which holds the library and the global declarations. -/
  | global
  /-- An imported file. -/
  | moduleRoot
  /-- A call, with its parameters. -/
  | function
  /-- A branch, a round of a loop, a handler or a case. -/
  | block
  deriving DecidableEq, Repr, Inhabited

namespace ScopeRole

/-- Whether the scope is that of a file: the word `set` does not look past it. -/
def isBoundary : ScopeRole → Bool
  | global | moduleRoot => true
  | function | block => false

/-- The name in dumps. -/
def name : ScopeRole → String
  | global => "Global"
  | moduleRoot => "ModuleRoot"
  | function => "Function"
  | block => "Block"

end ScopeRole

/-- Why a declaration or an assignment failed. -/
inductive ScopeError where
  /-- The scope has the name already. -/
  | alreadyDeclared
  /-- The binding is constant. -/
  | constant
  /-- No scope has the name. -/
  | undefined
  deriving DecidableEq, Repr

/-- A value under a name. -/
structure Binding where
  value : Value
  kind : DeclKind
  deriving Inhabited

/-- A change of one scope. -/
inductive ScopeWrite where
  /-- Puts a binding into a scope. -/
  | bind (id : ScopeId) (name : String) (b : Binding)
  /-- Gives a binding of a scope another value. -/
  | update (id : ScopeId) (name : String) (v : Value)

/-- A scope: its bindings, its parent and what it belongs to. -/
structure Scope where
  vars : OrderedMap Binding := .empty
  parent : Option ScopeId := none
  role : ScopeRole := .global
  deriving Inhabited

/-- All scopes of a run. -/
structure Scopes where
  table : Array Scope := #[]
  deriving Inhabited

namespace Scopes

/-- The scope at a place. -/
def get (t : Scopes) (id : ScopeId) : Scope := t.table.getD id {}

/-- The place of the root. -/
def root : ScopeId := 0

/-- A table with nothing but the root. -/
def initial : Scopes := ⟨#[{}]⟩

/-- Makes a root of its own. -/
def addRoot (t : Scopes) : ScopeId × Scopes :=
  let id := t.table.size
  (id, ⟨t.table.push {}⟩)

/-- Makes a child of a scope. -/
def child (t : Scopes) (parent : ScopeId) (role : ScopeRole) : ScopeId × Scopes :=
  let id := t.table.size
  (id, ⟨t.table.push { parent := some parent, role := role }⟩)

/-- The outermost scope around a scope. -/
def rootOf (t : Scopes) (id : ScopeId) : ScopeId :=
  match (t.get id).parent with
  | some p => if p < id then rootOf t p else id
  | none => id
termination_by id

/-- The nearest binding of a name, with the scope that has it. -/
def find? (t : Scopes) (name : String) (id : ScopeId) : Option (ScopeId × Binding) :=
  let s := t.get id
  match s.vars.get? name with
  | some b => some (id, b)
  | none =>
    match s.parent with
    | some p => if p < id then find? t name p else none
    | none => none
termination_by id

/-- The value of the nearest binding of a name. -/
def lookup? (t : Scopes) (name : String) (id : ScopeId) : Option Value :=
  (t.find? name id).map (·.2.value)

/-- The nearest binding of a name up to the scope of the file, with the scope that has it. -/
def findInFile? (t : Scopes) (name : String) (id : ScopeId) : Option (ScopeId × Binding) :=
  let s := t.get id
  match s.vars.get? name with
  | some b => some (id, b)
  | none =>
    if s.role.isBoundary then none
    else
      match s.parent with
      | some p => if p < id then findInFile? t name p else none
      | none => none
termination_by id

/-- Whether a scope itself has a name. -/
def has (t : Scopes) (name : String) (id : ScopeId) : Bool := (t.get id).vars.contains name

/-- Puts a binding into a scope. -/
def bind (t : Scopes) (id : ScopeId) (name : String) (b : Binding) : Scopes :=
  ⟨t.table.modify id fun s => { s with vars := s.vars.insert name b }⟩

/-- Gives a binding of a scope another value. -/
def update (t : Scopes) (id : ScopeId) (name : String) (v : Value) : Scopes :=
  ⟨t.table.modify id fun s =>
    { s with vars := s.vars.modify name fun b => { b with value := v } }⟩

/-- Carries a change out. -/
def perform (t : Scopes) : ScopeWrite → Scopes
  | .bind id name b => t.bind id name b
  | .update id name v => t.update id name v

/-- The change that declares a name in a scope. -/
def planDefine (t : Scopes) (id : ScopeId) (name : String) (v : Value) (kind : DeclKind) :
    Except ScopeError ScopeWrite :=
  match (t.get id).vars.get? name with
  | some b =>
    if kind == .set && b.kind == .set then .ok (.bind id name ⟨v, kind⟩)
    else .error .alreadyDeclared
  | none => .ok (.bind id name ⟨v, kind⟩)

/-- The change that gives a binding that was found another value. -/
def planOverwrite (name : String) (v : Value) (found : ScopeId × Binding) :
    Except ScopeError ScopeWrite :=
  if found.2.kind == .const then .error .constant else .ok (.update found.1 name v)

/-- The change that assigns to a name. -/
def planAssign (t : Scopes) (id : ScopeId) (name : String) (v : Value) :
    Except ScopeError ScopeWrite :=
  match t.find? name id with
  | some found => planOverwrite name v found
  | none => .error .undefined

/-- The change that the word `set` makes. -/
def planSet (t : Scopes) (id : ScopeId) (name : String) (v : Value) :
    Except ScopeError ScopeWrite :=
  match t.findInFile? name id with
  | some found => planOverwrite name v found
  | none => t.planDefine id name v .set

/-- Declares a name in a scope. -/
def define (t : Scopes) (id : ScopeId) (name : String) (v : Value) (kind : DeclKind) :
    Except ScopeError Scopes :=
  (t.planDefine id name v kind).map t.perform

/-- Changes the nearest binding of a name. -/
def assign (t : Scopes) (id : ScopeId) (name : String) (v : Value) : Except ScopeError Scopes :=
  (t.planAssign id name v).map t.perform

/-- Changes the nearest binding of a name up to the scope of the file, or declares the name. -/
def setVariable (t : Scopes) (id : ScopeId) (name : String) (v : Value) :
    Except ScopeError Scopes :=
  (t.planSet id name v).map t.perform

/-- The names that a scope shows, innermost first. -/
def visible (t : Scopes) (id : ScopeId) : List String :=
  let s := t.get id
  match s.parent with
  | some p => s.vars.keys ++ if p < id then visible t p else []
  | none => s.vars.keys
termination_by id

/-- The bindings of a scope, in order. -/
def bindings (t : Scopes) (id : ScopeId) : List (String × Value) :=
  (t.get id).vars.toList.map fun e => (e.1, e.2.value)

/-- The form of a scope in dumps. -/
def inspect (t : Scopes) (id : ScopeId) : String :=
  let s := t.get id
  let names := String.intercalate ", " (s.vars.keys.map Quoted.quote)
  s!"Environment \x7b role: {s.role.name}, names: [{names}], .. \x7d"

end Scopes

end ScriptLang
