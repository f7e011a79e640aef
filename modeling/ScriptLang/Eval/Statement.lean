import ScriptLang.Eval.Access
import ScriptLang.Eval.Case
import ScriptLang.Eval.Expression
import ScriptLang.Eval.Import

/-!
# The rules of statements

`Eval.statement` is the effect of a statement over a given evaluator.

* Branches, handlers and cases run in a block of their own, and so does every round of a loop.
* A loop stops at a jump that means it, or hands the jump on.
* `Eval.attempt` handles errors; jumps and halts pass through it.
-/

namespace ScriptLang.Eval

/-- Declares a name with a word. -/
def declare (kind : DeclKind) (name : String) (v : Value) (loc : Location) : Eval Unit :=
  match kind with
  | .global => defineIn Scopes.root name v .global loc
  | .let => define name v .let loc
  | .const => define name v .const loc
  | .set => setVariable name v loc

/-- Binds names to the elements of an array, and to null beyond its end. -/
def bindElements (bind : String → Value → Eval Unit) : List String → List Value → Eval Unit
  | [], _ => pure ()
  | n :: ns, [] => do
    bind n .null
    bindElements bind ns []
  | n :: ns, v :: vs => do
    bind n v
    bindElements bind ns vs

/-- Binds names to the members of an object, as they are when the name's turn comes. -/
def bindMembers (bind : String → Value → Eval Unit) (r : Ref) : List String → Eval Unit
  | [] => pure ()
  | n :: ns => do
    bind n (← lookHeap fun h => .ofOption ((h.object r).get? n))
    bindMembers bind r ns

/-- Takes a value apart by a pattern. -/
def takeApart (p : Destructure) (v : Value) (loc : Location) (bind : String → Value → Eval Unit) :
    Eval Unit :=
  match p, v with
  | .array names, .array r => do
    bindElements bind names (← lookHeap fun h => (h.array r).toList)
  | .array _, _ => fail .destructureNonArray loc
  | .object names, .object r => bindMembers bind r names
  | .object _, _ => fail .destructureNonObject loc

/-- Whatever passes through looking at containers and binding a name before the rest is true of
taking a value apart. It is told the names that are bound. -/
theorem takeApart_induction {J : List String → Eval Unit → Prop} {loc : Location}
    {bind : String → Value → Eval Unit} (stop : J [] (pure ()))
    (next : ∀ n v ns x, J ns x → J (n :: ns) (do bind n v; x))
    (looked : ∀ {α : Type} (f : Heap → α) (k : α → Eval Unit) ns, (∀ a, J ns (k a)) →
      J ns (do k (← lookHeap f)))
    (failed : ∀ fault ns, J ns (fail fault loc)) (p : Destructure) (v : Value) :
    J p.names (takeApart p v loc bind) := by
  have helements (ns : List String) : ∀ vs, J ns (bindElements bind ns vs) := by
    induction ns with
    | nil => exact fun _ => stop
    | cons n ns ih =>
      intro vs
      cases vs with
      | nil => exact next n .null ns _ (ih [])
      | cons v vs => exact next n v ns _ (ih vs)
  have hmembers (r : Ref) (ns : List String) : J ns (bindMembers bind r ns) := by
    induction ns with
    | nil => exact stop
    | cons n ns ih => exact looked _ _ _ fun v => next n v ns _ ih
  -- Only an array or an object can be taken apart, each by its own names.
  unfold takeApart
  split
  · exact looked _ _ _ fun vs => helements _ vs
  · exact failed ..
  · exact hmembers ..
  · exact failed ..

/-- Writes a member of a container. -/
def storeAt (target key v : Value) (targetLoc keyLoc : Location) : Eval Unit :=
  match target with
  | .array r =>
    match key.integer? with
    | none => fail (.writeIndexType key.typeName) keyLoc
    | some i =>
      if i < 0 then fail (.negativeIndex i) keyLoc else storeElement r i.toNat v keyLoc
  | .object r => storeMember r key v
  | t => fail (.writeTarget t.typeName) targetLoc

/-- Rounds of a loop with a condition, or without one. `last` is the value so far. -/
def rounds (ev : Evaluator) (test : Option Expr) (body : List Stmt) (label : Option String) :
    Nat → Value → Eval Flow
  | 0, _ => halt .exhausted
  | bound + 1, last => do
    if ← holds ev test then
      match ← inBlock (runStatements ev body) with
      | .normal v => rounds ev test body label bound v
      | .giveBack v => pure (.giveBack v)
      | .breakTo j => pure (if j.targets label then .normal last else .breakTo j)
      | .continueTo j =>
        if j.targets label then rounds ev test body label bound last else pure (.continueTo j)
    else pure (.normal last)

/-- Rounds of a loop over an array, from an index on. The array is read anew in every round. -/
def roundsOver (ev : Evaluator) (name : String) (r : Ref) (body : List Stmt)
    (label : Option String) (loc : Location) : Nat → Nat → Value → Eval Flow
  | 0, _, _ => halt .exhausted
  | bound + 1, i, last => do
    match ← element? r i with
    | none => pure (.normal last)
    | some item =>
      let id ← newChild .block
      defineIn id name item .set loc
      match ← inScope id (runStatements ev body) with
      | .normal v => roundsOver ev name r body label loc bound (i + 1) v
      | .giveBack v => pure (.giveBack v)
      | .breakTo j => pure (if j.targets label then .normal last else .breakTo j)
      | .continueTo j =>
        if j.targets label then roundsOver ev name r body label loc bound (i + 1) last
        else pure (.continueTo j)

/-- A loop over the elements of a value. -/
def forEach (ev : Evaluator) (name : String) (e : Expr) (body : List Stmt)
    (label : Option String) : Eval Flow := do
  match ← ev.expr e with
  | .array r => inBlock (roundsOver ev name r body label e.location ev.bound 0 .null)
  | v => fail (.loopOverNonArray v.typeName) e.location

/-- The members of the object that stands for an error. -/
def errorMembers (d : Diagnostic) : List (String × Value) :=
  [("type", .string d.category.name), ("code", .string d.code), ("message", .string d.message),
    ("suggestion", .ofOption (d.suggestion.map .string)), ("file", .string d.location.file),
    ("line", .ofNat d.location.line), ("column", .ofNat d.location.column)]

/-- Runs the handler of an error, which may name it. -/
def runHandler (ev : Evaluator) (name : Option String) (handler : List Stmt) (d : Diagnostic) :
    Eval Flow := do
  let id ← newChild .block
  match name with
  | some n => do
    let v ← newObject (.ofList (errorMembers d))
    defineIn id n v .set d.location
  | none => pure ()
  inScope id (runStatements ev handler)

/-- Runs a body, and its handler on an error. -/
def attempt (ev : Evaluator) (body : List Stmt) (name : Option String)
    (handler : Option (List Stmt)) : Eval Flow :=
  match handler with
  | none => inBlock (runStatements ev body)
  | some handler => handle (inBlock (runStatements ev body)) (runHandler ev name handler)

/-- The place that the fault of a guard that runs to its end is reported at. -/
def guardEnd (loc : Location) (body : List Stmt) : Location :=
  match body.getLast? with
  | some s => s.location
  | none => loc

/-- A loop statement with a label; other statements ignore it. -/
def labeled (ev : Evaluator) (label : Option String) : Stmt → Eval Flow
  | .whileLoop _ test body => rounds ev (some test) body label ev.bound .null
  | .loop _ body => rounds ev none body label ev.bound .null
  | .forEach _ name e body => forEach ev name e body label
  | s => ev.stmt s

/-- The effect of a statement. -/
def statement (ev : Evaluator) : Stmt → Eval Flow
  | .declare loc kind target e _ => do
    let v ← ev.expr e
    match target with
    | .name n => declare kind n v loc
    | .pattern p => takeApart p v loc fun n item => declare kind n item loc
    return .normal v
  | .destructure loc p e => do
    let v ← ev.expr e
    takeApart p v e.location fun n item => setVariable n item loc
    return .normal v
  | .setProperty _ e name value => do
    let target ← ev.expr e
    let v ← ev.expr value
    match target with
    | .object r =>
      modifyObject r fun entries => entries.insert name v
      return .normal v
    | t => fail (.propertyTarget name t.typeName) e.location
  | .setIndex _ e index value => do
    let target ← ev.expr e
    let key ← ev.expr index
    let v ← ev.expr value
    storeAt target key v e.location index.location
    return .normal v
  | .function loc fn _ => do
    let v ← newClosure fn
    define fn.displayName v .set loc
    return .normal .null
  | .cond _ test yes no => do
    if (← ev.expr test).truthy then inBlock (runStatements ev yes)
    else
      match no with
      | .nothing => return .normal .null
      | .block body => inBlock (runStatements ev body)
      | .elseIf next => ev.stmt next
  | .guard loc test no => do
    if (← ev.expr test).truthy then return .normal .null
    else
      match ← inBlock (runStatements ev no) with
      | .normal _ => fail .guardFallsThrough (guardEnd loc no)
      | flow => return flow
  | .whileLoop _ test body => rounds ev (some test) body none ev.bound .null
  | .loop _ body => rounds ev none body none ev.bound .null
  | .forEach _ name e body => forEach ev name e body none
  | .labeled _ label body => labeled ev (some label) body
  | .breakTo loc label => return .breakTo ⟨label, loc⟩
  | .continueTo loc label => return .continueTo ⟨label, loc⟩
  | .attempt _ body name handler => attempt ev body name handler
  | .call loc callee args dest => do
    let v ← callExpr ev callee args false loc
    match dest with
    | some n => define n v .set loc
    | none => pure ()
    return .normal v
  | .giveBack _ e => do
    match e with
    | some e => return .giveBack (← ev.expr e)
    | none => return .giveBack .null
  | .print _ e => do
    let v ← ev.expr e
    let text ← print v
    overPrinter (·.printLine text)
    return .normal v
  | .raise loc e => do
    let text ← print (← ev.expr e)
    fail (.raised text) loc
  | .choose _ e cases => choose ev e cases
  | .load loc path name => do
    let v ← importModule ev path loc
    let id ← scope
    alterScopes (fun t => t.planDefine id name v .const) (fun _ => .importNameTaken name) loc
    return .normal .null
  | .expr _ e => do return .normal (← ev.expr e)

end ScriptLang.Eval
