import ScriptLang.Eval.Access
import ScriptLang.Eval.Expression
import ScriptLang.Proofs.HostPaths

/-!
# Local computations

Most of what a program does concerns values alone: operators, members of containers, nearly all of
the library. Such a computation is *local*. It may fill containers, print, draw random numbers and
deal with the host, and it leaves alone what the rules of the language are about: where the
computation runs, the scopes, the imported modules and the journal.

* `Machine.Alike` relates two machines that differ in nothing but containers, output, random state
  and the state of the host.
* `Eval.Local` says of a computation that it leads to a machine alike, however it ends.
* `Diagnostic.Fresh` is what an error is like when it is raised, and `Eval.Confined` says of a local
  computation that it raises all its errors itself, at one place.

A local computation needs no thought in an induction over the evaluator: whatever is stated about
context, scopes, modules or journal is the same after it. The rules below are simp lemmas, so that a
local computation is recognised by `simp` once its cases are split. What may fail is shown to be
confined, what cannot also to be local.
-/

namespace ScriptLang

/-- **Fresh.** The error is as a running program raises it at a place, while these calls are active:
it quotes no line and has no record of the calls yet. -/
structure Diagnostic.Fresh (d : Diagnostic) (loc : Location) (frames : List CallFrame) : Prop where
  runtime : d.category = .runtime
  location : d.location = loc
  stack : d.stack = []
  snippet : d.snippet = none
  origin : d.origin.val = frames

theorem Report.fresh_toDiagnostic (r : Report) (loc : Location) (frames : List CallFrame) :
    ((r.toDiagnostic loc).raisedIn frames).Fresh loc frames :=
  ⟨rfl, rfl, rfl, rfl, Ghost.val_of _⟩

theorem RuntimeFault.fresh_toDiagnostic (f : RuntimeFault) (loc : Location)
    (frames : List CallFrame) : ((f.toDiagnostic loc).raisedIn frames).Fresh loc frames :=
  f.report.fresh_toDiagnostic loc frames

/-- **Alike.** The machines agree in everything but containers, output, random state and the state
of the host; of the host, the rules for reading paths agree. -/
structure Machine.Alike (m m' : Machine) : Prop where
  context : m'.context = m.context
  scopes : m'.scopes = m.scopes
  modules : m'.modules = m.modules
  sources : m'.sources = m.sources
  paths : m'.host.paths = m.host.paths
  now : m'.now = m.now
  journal : m'.journal = m.journal

namespace Machine.Alike

variable {m m₁ m₂ m₃ : Machine}

@[refl] theorem refl (m : Machine) : m.Alike m := ⟨rfl, rfl, rfl, rfl, rfl, rfl, rfl⟩

theorem trans (h : m₁.Alike m₂) (h' : m₂.Alike m₃) : m₁.Alike m₃ :=
  ⟨h'.context.trans h.context, h'.scopes.trans h.scopes, h'.modules.trans h.modules,
    h'.sources.trans h.sources, h'.paths.trans h.paths, h'.now.trans h.now,
    h'.journal.trans h.journal⟩

/-- Another state of the same host. -/
theorem of_host {h : Host} (hp : h.paths = m.host.paths) : m.Alike { m with host := h } :=
  ⟨rfl, rfl, rfl, rfl, hp, rfl, rfl⟩

end Machine.Alike

namespace Eval

variable {α β : Type}

theorem andThen_assoc {γ : Type} (x : Eval α) (f : α → Eval β) (g : β → Eval γ) :
    x >>= f >>= g = x >>= fun a => f a >>= g := by
  funext m
  change Eval.andThen (Eval.andThen x f) g m = Eval.andThen x (fun a => Eval.andThen (f a) g) m
  unfold Eval.andThen
  cases x m <;> rfl

/-- The computation leads to a machine alike, whether it succeeds, fails or halts. -/
structure Local (x : Eval α) : Prop where
  alike : ∀ m : Machine, m.Alike (x m).machine

namespace Local

/-! ### Rules -/

@[simp] theorem of_pure (a : α) : Local (pure a) := ⟨fun m => .refl m⟩

theorem of_raise (d : Diagnostic) : Local (raise d : Eval α) := ⟨fun m => .refl m⟩

@[simp] theorem of_fail (f : RuntimeFault) (loc : Location) : Local (fail f loc : Eval α) :=
  of_raise _

@[simp] theorem of_refuse (r : Report) (loc : Location) : Local (refuse r loc : Eval α) :=
  of_raise _

@[simp] theorem of_halt (h : Halt) : Local (halt h : Eval α) := ⟨fun m => .refl m⟩

@[simp] theorem of_look (f : Machine → α) : Local (look f) := ⟨fun m => .refl m⟩

@[simp] theorem of_lookHeap (f : Heap → α) : Local (lookHeap f) := of_look _

@[simp] theorem of_overHeap (f : Heap → α × Heap) : Local (overHeap f) :=
  ⟨fun _ => ⟨rfl, rfl, rfl, rfl, rfl, rfl, rfl⟩⟩

@[simp] theorem of_overPrinter (f : Printer → Printer) : Local (overPrinter f) :=
  ⟨fun _ => ⟨rfl, rfl, rfl, rfl, rfl, rfl, rfl⟩⟩

@[simp] theorem of_ask (f : Host → α) : Local (ask f) :=
  ⟨fun m => .of_host m.host.paths_asked⟩

/-- An operation that gives a host with the same path rules. -/
theorem of_act {f : Host → Except HostFailure Host}
    (hf : ∀ h h', f h = .ok h' → h'.paths = h.paths) : Local (act f) := by
  refine ⟨fun m => ?_⟩
  unfold act
  cases e : f m.host with
  | ok h => exact .of_host (hf _ _ e)
  | error d => exact .of_host m.host.paths_asked

@[simp] theorem andThen {x : Eval α} {f : α → Eval β} (hx : Local x) (hf : ∀ a, Local (f a)) :
    Local (x >>= f) := by
  refine ⟨fun m => ?_⟩
  have h := hx.alike m
  change m.Alike (Eval.andThen x f m).machine
  unfold Eval.andThen
  cases e : x m with
  | ok a m' =>
    rw [e] at h
    exact h.trans ((hf a).alike m')
  | error d m' => rwa [e] at h
  | halt r m' => rwa [e] at h

@[simp] theorem map {f : α → β} {x : Eval α} (hx : Local x) : Local (f <$> x) :=
  andThen hx fun _ => of_pure _

@[simp] theorem ite {c : Prop} [Decidable c] {x y : Eval α} (hx : Local x) (hy : Local y) :
    Local (if c then x else y) := by
  split
  · exact hx
  · exact hy

@[simp] theorem of_orFail {ε : Type} (x : Except ε α) (fault : ε → RuntimeFault)
    (loc : Location) : Local (orFail x fault loc) := by
  cases x with
  | ok a => exact of_pure a
  | error e => exact of_fail _ loc

end Local

/-- **Confined.** The computation is local, and the errors that it ends with are raised by it, at
the place `loc`. -/
structure Confined (loc : Location) (x : Eval α) : Prop extends Local x where
  fresh : ∀ {m m' : Machine} {d : Diagnostic}, x m = .error d m' →
    d.Fresh loc m.context.calls.frames

namespace Confined

variable {loc : Location}

/-! ### Rules for what may fail -/

/-- A local computation that never fails. -/
theorem of_local {x : Eval α} (hx : Local x) (h : ∀ m d m', x m ≠ .error d m') : Confined loc x :=
  ⟨hx, fun e => absurd e (h _ _ _)⟩

@[simp] theorem of_pure (a : α) : Confined loc (pure a) := of_local (.of_pure a) fun _ _ _ => nofun

@[simp] theorem of_fail (f : RuntimeFault) (loc : Location) :
    Confined loc (fail f loc : Eval α) := by
  refine ⟨.of_fail f loc, fun {m m' d} e => ?_⟩
  cases e
  exact f.fresh_toDiagnostic loc _

@[simp] theorem of_refuse (r : Report) (loc : Location) :
    Confined loc (refuse r loc : Eval α) := by
  refine ⟨.of_refuse r loc, fun {m m' d} e => ?_⟩
  cases e
  exact r.fresh_toDiagnostic loc _

@[simp] theorem of_halt (h : Halt) : Confined loc (halt h : Eval α) :=
  of_local (.of_halt h) fun _ _ _ => nofun

@[simp] theorem of_look (f : Machine → α) : Confined loc (look f) :=
  of_local (.of_look f) fun _ _ _ => nofun

@[simp] theorem of_lookHeap (f : Heap → α) : Confined loc (lookHeap f) := of_look _

@[simp] theorem of_overHeap (f : Heap → α × Heap) : Confined loc (overHeap f) :=
  of_local (.of_overHeap f) fun _ _ _ => nofun

@[simp] theorem of_overPrinter (f : Printer → Printer) : Confined loc (overPrinter f) :=
  of_local (.of_overPrinter f) fun _ _ _ => nofun

@[simp] theorem of_ask (f : Host → α) : Confined loc (ask f) :=
  of_local (.of_ask f) fun _ _ _ => nofun

/-- An operation that gives a host with the same path rules. What the host refuses is a result. -/
theorem of_act {f : Host → Except HostFailure Host}
    (hf : ∀ h h', f h = .ok h' → h'.paths = h.paths) : Confined loc (act f) := by
  refine of_local (.of_act hf) fun m d m' e => ?_
  unfold act at e
  split at e <;> cases e

@[simp] theorem andThen {x : Eval α} {f : α → Eval β} (hx : Confined loc x)
    (hf : ∀ a, Confined loc (f a)) : Confined loc (x >>= f) := by
  refine ⟨hx.toLocal.andThen fun a => (hf a).toLocal, fun {m m' d} e => ?_⟩
  change Eval.andThen x f m = _ at e
  unfold Eval.andThen at e
  have halike := hx.alike m
  cases h : x m with
  | ok a m₁ =>
    -- The second computation starts where the same calls are active.
    rw [h] at e halike
    have hcontext : m₁.context = m.context := halike.context
    exact hcontext ▸ (hf a).fresh e
  | error d₁ m₁ =>
    rw [h] at e
    cases e
    exact hx.fresh h
  | halt r m₁ =>
    rw [h] at e
    cases e

@[simp] theorem map {f : α → β} {x : Eval α} (hx : Confined loc x) : Confined loc (f <$> x) :=
  andThen hx fun _ => of_pure _

@[simp] theorem ite {c : Prop} [Decidable c] {x y : Eval α} (hx : Confined loc x)
    (hy : Confined loc y) : Confined loc (if c then x else y) := by
  split
  · exact hx
  · exact hy

@[simp] theorem of_orFail {ε : Type} (x : Except ε α) (fault : ε → RuntimeFault)
    (loc : Location) : Confined loc (orFail x fault loc) := by
  cases x with
  | ok a => exact of_pure a
  | error e => exact of_fail _ loc

end Confined

/-! ### Containers -/

section Containers

variable {loc : Location}

@[simp] theorem confined_newArray (items : Array Value) : Confined loc (newArray items) :=
  .of_overHeap _

@[simp] theorem confined_newList (items : List Value) : Confined loc (newList items) :=
  confined_newArray _

@[simp] theorem confined_newObject (entries : OrderedMap Value) :
    Confined loc (newObject entries) := .of_overHeap _

@[simp] theorem confined_newIdentity : Confined loc newIdentity := .of_overHeap _

@[simp] theorem confined_array (r : Ref) : Confined loc (array r) := .of_lookHeap _

@[simp] theorem confined_element? (r : Ref) (i : Nat) : Confined loc (element? r i) :=
  .of_lookHeap _

@[simp] theorem confined_object (r : Ref) : Confined loc (object r) := .of_lookHeap _

@[simp] theorem confined_modifyArray (r : Ref) (f : Array Value → Array Value) :
    Confined loc (modifyArray r f) := .of_overHeap _

@[simp] theorem confined_modifyObject (r : Ref) (f : OrderedMap Value → OrderedMap Value) :
    Confined loc (modifyObject r f) := .of_overHeap _

@[simp] theorem confined_print (v : Value) : Confined loc (print v) := by
  unfold print
  split <;> simp

@[simp] theorem confined_scope : Confined loc scope := .of_look _

@[simp] theorem confined_declared (name : String) : Confined loc (declared name) := .of_look _

end Containers

/-! What cannot fail is also known to be local by itself, since no place tells where it would. -/

@[simp] theorem local_newArray (items : Array Value) : Local (newArray items) := .of_overHeap _

@[simp] theorem local_newList (items : List Value) : Local (newList items) := local_newArray _

@[simp] theorem local_newObject (entries : OrderedMap Value) : Local (newObject entries) :=
  .of_overHeap _

@[simp] theorem local_element? (r : Ref) (i : Nat) : Local (element? r i) := .of_lookHeap _

@[simp] theorem local_object (r : Ref) : Local (object r) := .of_lookHeap _

@[simp] theorem local_modifyObject (r : Ref) (f : OrderedMap Value → OrderedMap Value) :
    Local (modifyObject r f) := .of_overHeap _

@[simp] theorem local_print (v : Value) : Local (print v) :=
  (confined_print v : Confined default (print v)).toLocal

@[simp] theorem local_declared (name : String) : Local (declared name) := .of_look _

/-! ### Operators and members -/

@[simp] theorem confined_withNumbers (op : BinaryOp) (l r : Value) (loc : Location)
    {f : Float → Float → Eval Value} (hf : ∀ a b, Confined loc (f a b)) :
    Confined loc (withNumbers op l r loc f) := by
  unfold withNumbers
  split
  · exact hf _ _
  · simp

@[simp] theorem confined_combine (op : BinaryOp) (l r : Value) (loc : Location) :
    Confined loc (combine op l r loc) := by
  cases op with
  | add =>
    refine .ite (.andThen (confined_print l) fun a => ?_) ?_
    · simp
    · simp
  | _ => simp [combine]

@[simp] theorem confined_applyUnary (op : UnaryOp) (v : Value) (loc : Location) :
    Confined loc (applyUnary op v loc) := by
  unfold applyUnary
  split <;> simp

@[simp] theorem confined_memberOf (v : Value) (name : String) (safe : Bool) (loc : Location) :
    Confined loc (memberOf v name safe loc) := by
  unfold memberOf
  split <;> simp

@[simp] theorem confined_elementOf (v key : Value) (loc : Location) :
    Confined loc (elementOf v key loc) := by
  unfold elementOf
  repeat' split
  all_goals simp

@[simp] theorem confined_storeElement (r : Ref) (i : Nat) (v : Value) (loc : Location) :
    Confined loc (storeElement r i v loc) := by
  simp [storeElement]

@[simp] theorem confined_storeMember {loc : Location} (r : Ref) (key v : Value) :
    Confined loc (storeMember r key v) := by
  simp [storeMember]

@[simp] theorem local_storeMember (r : Ref) (key v : Value) : Local (storeMember r key v) :=
  (confined_storeMember r key v : Confined default (storeMember r key v)).toLocal

@[simp] theorem confined_spread (v : Value) (fault : RuntimeFault) (loc : Location) :
    Confined loc (spread v fault loc) := by
  unfold spread
  split <;> simp

@[simp] theorem confined_newClosure {loc : Location} (fn : FunctionDef) :
    Confined loc (newClosure fn) := by
  simp [newClosure]

@[simp] theorem local_newClosure (fn : FunctionDef) : Local (newClosure fn) :=
  (confined_newClosure fn : Confined default (newClosure fn)).toLocal

@[simp] theorem confined_requireCallable (f : Value) (name : String) (loc : Location) :
    Confined loc (requireCallable f name loc) := by
  simp [requireCallable]

@[simp] theorem confined_undefinedName (name : String) (loc : Location) :
    Confined loc (undefinedName name loc : Eval α) := by
  refine ⟨⟨fun m => (Local.of_fail _ loc).alike m⟩, fun {m m' d} e => ?_⟩
  exact (Confined.of_fail _ loc).fresh e

@[simp] theorem confined_nameValue (name : String) (loc : Location) :
    Confined loc (nameValue name loc) := by
  refine .andThen (.of_look _) fun found => ?_
  split <;> simp

@[simp] theorem confined_moduleMember (module name : String) (loc : Location) :
    Confined loc (moduleMember module name loc) := by
  refine .andThen (confined_nameValue module loc) fun v => ?_
  split
  · refine .andThen (confined_object _) fun entries => ?_
    split <;> simp
  · simp

end Eval

@[simp] theorem Flow.local_atBoundary (normal : Value → Value) (flow : Flow) :
    Eval.Local (flow.atBoundary normal) := by
  cases flow <;> simp [atBoundary]

end ScriptLang
