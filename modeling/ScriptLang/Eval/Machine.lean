import ScriptLang.Eval.CallStack
import ScriptLang.Eval.Journal
import ScriptLang.Eval.Printer
import ScriptLang.Host.Basic
import ScriptLang.Source.Lines
import ScriptLang.Value.Print

/-!
# The machine

The state of a running program, and computations on it.

* A `Context` is what a computation may change only for its own parts: the current scope and file,
  the active calls and the imports under way. It is put back by the functions that change it
  (`Eval.inScope`, `Eval.inFile`, `Eval.inCall`, `Eval.inImport`), however their parts end.
* A `Machine` is the context together with what stays: containers, scopes, imported modules, source
  texts, the host, the output and the state of the random numbers. What it has been through is
  written into its journal, which no computation can read.
* A computation of type `Eval α` ends in one of three ways (`Outcome`): with a result, with an error
  that the program can handle, or by halting, which nothing handles.
-/

namespace ScriptLang

/-- Where a computation runs. -/
structure Context where
  /-- The current scope. -/
  scope : ScopeId := Scopes.root
  /-- The current file. -/
  file : String := "<main>"
  /-- The active calls. -/
  calls : CallStack := {}
  /-- The files being imported, the innermost first. -/
  loading : List String := []
  /-- What is under way, the innermost first. -/
  within : Ghost (List Activity) := .of []
  deriving Inhabited

namespace Context

/-- In another scope. -/
def atScope (c : Context) (id : ScopeId) : Context := { c with scope := id }

/-- In the statements of a file. -/
def enterFile (c : Context) (id : ScopeId) (file : String) : Context :=
  { c with scope := id, file := file, within := c.within.map (.file file :: ·) }

/-- In a scope and file that were left for another file. -/
def leaveFile (c : Context) (id : ScopeId) (file : String) : Context :=
  { c with scope := id, file := file, within := c.within.map List.tail }

/-- In a call that is not on the call stack yet. -/
def enterFunction (c : Context) (function : String) : Context :=
  { c with within := c.within.map (.call function :: ·) }

/-- After a call. -/
def leaveFunction (c : Context) : Context := { c with within := c.within.map List.tail }

/-- With other active calls. -/
def withCalls (c : Context) (calls : CallStack) : Context := { c with calls := calls }

/-- In the import of a file. -/
def enterImport (c : Context) (path : String) : Context := { c with loading := path :: c.loading }

/-- After the import of a file. -/
def leaveImport (c : Context) : Context := { c with loading := c.loading.tail }

end Context

/-- The state of a running program. -/
structure Machine where
  context : Context := {}
  heap : Heap := .empty
  scopes : Scopes := .initial
  /-- What imported modules export, by name or path. -/
  modules : List (String × Value) := []
  sources : SourceMap := .empty
  host : Host := .denied
  printer : Printer := .empty
  /-- The state of the random numbers. -/
  random : Nat := 1
  /-- The present. -/
  now : Instant := ⟨0⟩
  /-- What has happened, the latest first. -/
  journal : Ghost (List JournalEntry) := .of []
  deriving Inhabited

/-- The machine after an event, which its journal records. -/
@[inline] def Machine.after (m : Machine) (e : Event) : Machine :=
  { m with
    journal := Ghost.map₂
      (fun within entries =>
        ⟨e, m.context.file, within, m.context.loading, m.modules.map (·.1)⟩ :: entries)
      m.context.within m.journal }

/-- Why a program halts. -/
inductive Halt where
  /-- An object was written to while it was being printed as its own key. -/
  | internal
  /-- Values were found to have no order while they were sorted. -/
  | unordered
  /-- The program was left with a code. -/
  | left (code : Int)
  /-- The bound on the depth of the computation is met. -/
  | exhausted
  deriving DecidableEq, Repr

/-- How a computation ends. -/
inductive Outcome (α : Type) where
  /-- With a result. -/
  | ok (result : α) (m : Machine)
  /-- With an error, which the program can handle. -/
  | error (d : Diagnostic) (m : Machine)
  /-- By halting. -/
  | halt (reason : Halt) (m : Machine)

/-- The state that a computation leaves. -/
def Outcome.machine {α : Type} : Outcome α → Machine
  | .ok _ m | .error _ m | .halt _ m => m

/-- A computation on the machine. -/
def Eval (α : Type) : Type := Machine → Outcome α

namespace Eval

variable {α β : Type}

/-- A result. -/
@[always_inline, inline]
def pure' (a : α) : Eval α := fun m => .ok a m

/-- One computation after the other. -/
@[always_inline, inline]
def andThen (x : Eval α) (f : α → Eval β) : Eval β := fun m =>
  match x m with
  | .ok a m => f a m
  | .error d m => .error d m
  | .halt h m => .halt h m

@[always_inline]
instance : Monad Eval where
  pure := pure'
  bind := andThen

instance : Inhabited (Eval α) := ⟨fun m => .halt .exhausted m⟩

/-- What follows a result. -/
theorem bind_of_ok {x : Eval α} {f : α → Eval β} {m n : Machine} {a : α} (h : x m = .ok a n) :
    (x >>= f) m = f a n := by
  change andThen x f m = _
  unfold andThen
  rw [h]

/-- Nothing follows an error. -/
theorem bind_of_error {x : Eval α} {f : α → Eval β} {m n : Machine} {d : Diagnostic}
    (h : x m = .error d n) : (x >>= f) m = .error d n := by
  change andThen x f m = _
  unfold andThen
  rw [h]

/-- Nothing follows a halt. -/
theorem bind_of_halt {x : Eval α} {f : α → Eval β} {m n : Machine} {r : Halt}
    (h : x m = .halt r n) : (x >>= f) m = .halt r n := by
  change andThen x f m = _
  unfold andThen
  rw [h]

/-- A result has two parts behind it. -/
theorem exists_ok_of_bind {x : Eval α} {f : α → Eval β} {m n : Machine} {b : β}
    (h : (x >>= f) m = .ok b n) : ∃ a m₁, x m = .ok a m₁ ∧ f a m₁ = .ok b n := by
  cases e : x m with
  | ok a m₁ => exact ⟨a, m₁, rfl, (bind_of_ok e).symm.trans h⟩
  | error d m₁ =>
    rw [bind_of_error e] at h
    cases h
  | halt r m₁ =>
    rw [bind_of_halt e] at h
    cases h

/-- Ends with an error, which is raised in the active calls. -/
@[inline] def raise (d : Diagnostic) : Eval α := fun m =>
  .error (d.raisedIn m.context.calls.frames) m

/-- Ends with a fault at a place. -/
def fail (f : RuntimeFault) (loc : Location) : Eval α := raise (f.toDiagnostic loc)

/-- Ends with what a report says, at a place. -/
def refuse (r : Report) (loc : Location) : Eval α := raise (r.toDiagnostic loc)

/-- Halts. -/
def halt (reason : Halt) : Eval α := fun m => .halt reason m

/-- What `f` sees of the machine. -/
@[inline] def look (f : Machine → α) : Eval α := fun m => .ok (f m) m

/-! The four functions below take the machine apart before they change a part of it, so that the
part is held once and can be changed in place. -/

/-- Changes the context. -/
@[inline] def overContext (f : Context → Context) (m : Machine) : Machine :=
  match m with
  | ⟨c, h, s, mods, src, host, out, r, now, j⟩ => ⟨f c, h, s, mods, src, host, out, r, now, j⟩

/-- Changes the heap and gives a result. -/
@[inline] def overHeap (f : Heap → α × Heap) : Eval α := fun m =>
  match m with
  | ⟨c, h, s, mods, src, host, out, r, now, j⟩ =>
    let (a, h) := f h
    .ok a ⟨c, h, s, mods, src, host, out, r, now, j⟩

/-- Changes the scopes and gives a result. -/
@[inline] def overScopes (f : Scopes → α × Scopes) : Eval α := fun m =>
  match m with
  | ⟨c, h, s, mods, src, host, out, r, now, j⟩ =>
    let (a, s) := f s
    .ok a ⟨c, h, s, mods, src, host, out, r, now, j⟩

/-- Changes the output. -/
@[inline] def overPrinter (f : Printer → Printer) : Eval Unit := fun m =>
  match m with
  | ⟨c, h, s, mods, src, host, out, r, now, j⟩ =>
    .ok () ⟨c, h, s, mods, src, host, f out, r, now, j⟩

/-- Changes the machine. -/
@[inline] def change (f : Machine → Machine) : Eval Unit := fun m => .ok () (f m)

/-- The result of `x`, or the fault of its error. -/
def orFail {ε : Type} (x : Except ε α) (fault : ε → RuntimeFault) (loc : Location) : Eval α :=
  match x with
  | .ok a => pure a
  | .error e => fail (fault e) loc

/-- Goes on with what `handler` makes of an error. -/
@[inline] def handle (x : Eval α) (handler : Diagnostic → Eval α) : Eval α := fun m =>
  match x m with
  | .error d m => handler d m
  | o => o

/-! ### The context -/

/-- The current scope. -/
@[inline] def scope : Eval ScopeId := look (·.context.scope)

/-- Runs a computation in a changed context, and changes the context back, unless it halts. -/
@[inline] def inContext (enter leave : Context → Context) (x : Eval α) : Eval α := fun m =>
  match x (overContext enter m) with
  | .ok a m => .ok a (overContext leave m)
  | .error d m => .error d (overContext leave m)
  | .halt h m => .halt h m

/-- Runs a computation in another scope. -/
@[inline] def inScope (id : ScopeId) (x : Eval α) : Eval α := fun m =>
  let saved := m.context.scope
  inContext (·.atScope id) (·.atScope saved) x m

/-- Runs the statements of a file, in a scope of theirs. -/
def inFile (id : ScopeId) (file : String) (x : Eval α) : Eval α := fun m =>
  let saved := m.context.scope
  let savedFile := m.context.file
  inContext (·.enterFile id file) (·.leaveFile saved savedFile) x m

/-- Runs what a call does. It is not on the call stack yet. -/
def inFunction (function : String) (x : Eval α) : Eval α :=
  inContext (·.enterFunction function) (·.leaveFunction) x

/-- Records the active calls on an error. -/
@[inline] def attaching (x : Eval α) : Eval α := fun m =>
  match x m with
  | .error d m => .error (m.context.calls.attach d) m
  | o => o

/-- Runs a computation as a call on the call stack. An error that leaves it records the active
calls. -/
def inCall (frame : CallFrame) (x : Eval α) : Eval α := fun m =>
  match m.context.calls.push frame with
  | .error d => raise d m
  | .ok calls => inContext (·.withCalls calls) (fun c => c.withCalls c.calls.pop) (attaching x) m

/-! ### The journal -/

/-- Writes an event into the journal. -/
@[inline] def note (e : Event) : Eval Unit := change (·.after e)

/-- Runs a computation as the import of a file. -/
def inImport (path : String) (x : Eval α) : Eval α := fun m =>
  match inContext (·.enterImport path) (·.leaveImport) (do note (.began path); x) m with
  | .ok a m => .ok a (m.after (.ended path))
  | .error d m => .error d (m.after (.ended path))
  | .halt h m => .halt h m

/-! ### The host -/

/-- What the host answers to a question that changes nothing else. -/
@[inline] def ask (f : Host → α) : Eval α := fun m =>
  .ok (f m.host) { m with host := m.host.asked }

/-- Has the host change the surroundings, and gives its answer. -/
@[inline] def act (f : Host → Except HostFailure Host) : Eval (Except HostFailure Unit) := fun m =>
  match f m.host with
  | .ok host => .ok (.ok ()) { m with host := host }
  | .error failure => .ok (.error failure) { m with host := m.host.asked }

/-! ### Containers -/

/-- What `f` sees of the heap. -/
@[inline] def lookHeap (f : Heap → α) : Eval α := look fun m => f m.heap

/-- A new array. -/
def newArray (items : Array Value) : Eval Value := overHeap (·.allocArray items)

/-- A new array of listed elements. -/
def newList (items : List Value) : Eval Value := newArray items.toArray

/-- A new object. -/
def newObject (entries : OrderedMap Value) : Eval Value := overHeap (·.allocObject entries)

/-- The identity of a new function value. -/
def newIdentity : Eval Nat := overHeap (·.freshIdentity)

/-- The elements of an array. -/
def array (r : Ref) : Eval (Array Value) := lookHeap (·.array r)

/-- One element of an array. -/
def element? (r : Ref) (i : Nat) : Eval (Option Value) := lookHeap fun h => (h.array r)[i]?

/-- The entries of an object. -/
def object (r : Ref) : Eval (OrderedMap Value) := lookHeap (·.object r)

/-- Changes the elements of an array. -/
def modifyArray (r : Ref) (f : Array Value → Array Value) : Eval Unit :=
  overHeap fun h => ((), h.modifyArray r f)

/-- Changes the entries of an object. -/
def modifyObject (r : Ref) (f : OrderedMap Value → OrderedMap Value) : Eval Unit :=
  overHeap fun h => ((), h.modifyObject r f)

/-- The printed form of a value. -/
def print (v : Value) : Eval String :=
  match v with
  | .string s => pure s
  | v => lookHeap (·.print v)

/-- Printing reads the heap and changes nothing; a text is its own printed form. -/
theorem print_eq (v : Value) (m : Machine) : print v m = .ok (m.heap.print v) m := by
  cases v <;> rfl

/-! ### Scopes -/

/-- A new scope inside a given one. -/
def newChildOf (parent : ScopeId) (role : ScopeRole) : Eval ScopeId :=
  overScopes (·.child parent role)

/-- A new scope inside the current one. -/
def newChild (role : ScopeRole) : Eval ScopeId := do newChildOf (← scope) role

/-- Runs a computation in a new block of the current scope. -/
def inBlock (x : Eval α) : Eval α := do
  let id ← newChild .block
  inScope id x

/-- Carries a planned change of the scopes out. -/
@[inline] def alterScopes (plan : Scopes → Except ScopeError ScopeWrite)
    (fault : ScopeError → RuntimeFault) (loc : Location) : Eval Unit := fun m =>
  match plan m.scopes with
  | .ok w => overScopes (fun t => ((), t.perform w)) m
  | .error e => fail (fault e) loc m

/-- Declares a name in a scope. -/
def defineIn (id : ScopeId) (name : String) (v : Value) (kind : DeclKind) (loc : Location) :
    Eval Unit :=
  alterScopes (fun t => t.planDefine id name v kind) (.ofScope name) loc

/-- Declares a name in the current scope. -/
def define (name : String) (v : Value) (kind : DeclKind) (loc : Location) : Eval Unit := do
  defineIn (← scope) name v kind loc

/-- Gives a name a value in the way of the word `set`. -/
def setVariable (name : String) (v : Value) (loc : Location) : Eval Unit := do
  let id ← scope
  alterScopes (fun t => t.planSet id name v) (.ofScope name) loc

/-- Whether the current scope itself has a name. -/
def declared (name : String) : Eval Bool := look fun m => m.scopes.has name m.context.scope

end Eval

end ScriptLang
