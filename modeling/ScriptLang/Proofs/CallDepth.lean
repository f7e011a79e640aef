import ScriptLang.Proofs.RegimeRuns

/-!
# The limit on active calls

The limit is on calls whose body has begun: a call is pushed onto the call stack after its
parameters are bound. So a default that calls is computed one call less deep than the body of the
same function, and a function whose default calls the function itself never meets the limit. What
does hold, for whatever a program does to call:

* at no step of a run are there more active calls than the limit, the outermost one included;
* where that many are active, a call that takes its arguments binds them, which may compute
  defaults, and then fails before anything of its body.

The first part is a regime that allows any program where so many calls are active; the obligation
that matters is that a push keeps to it. `call_depth_limited` is the main statement.
-/

namespace ScriptLang

/-- **Within.** So many calls may be active, and no more are. -/
structure CallStack.Within (s : CallStack) (d : Nat) : Prop where
  limit : s.limit = some d
  bound : s.frames.length ≤ d

namespace CallStack.Within

variable {s t : CallStack} {f : CallFrame} {d : Nat}

theorem ofLimit (d : Nat) : (CallStack.ofLimit (some d)).Within d := ⟨rfl, Nat.zero_le d⟩

/-- One more call is pushed if there is room for it. -/
theorem push (h : s.Within d) (he : s.push f = .ok t) : t.Within d := by
  have hframes := frames_push he
  unfold CallStack.push at he
  split at he
  · rename_i hroom
    rw [hasRoom, h.limit, s.depth_eq] at hroom
    have : s.frames.length < d := by simpa using hroom
    refine ⟨by cases he; exact h.limit, ?_⟩
    rw [hframes, List.length_cons]
    omega
  · cases he

/-- At the limit a push is refused. -/
theorem push_full (h : s.Within d) (hs : s.frames.length = d) :
    s.push f = .error ((RuntimeFault.callDepth d).toDiagnostic f.location) := by
  unfold CallStack.push
  rw [if_neg (by simp [hasRoom, h.limit, s.depth_eq, hs]), h.limit]
  rfl

end CallStack.Within

/-- So many arguments are neither too few nor too many for a function. -/
structure FunctionDef.Accepts (fn : FunctionDef) (count : Nat) : Prop where
  least : fn.required ≤ count
  most : fn.rest? = none → count ≤ fn.params.length

/-- What a call does before its body: parameters are bound in a new scope. -/
def Eval.bindArguments (ev : Evaluator) (fn : FunctionDef) (home : ScopeId) (args : List Value)
    (loc : Location) : Eval Unit :=
  inFunction fn.displayName do
    let id ← newChildOf home .function
    inScope id do
      let remaining ← bindParams ev loc fn.params args
      bindRest fn.rest? remaining loc

namespace Machine

/-- No step of a run is taken with more active calls than the limit. -/
theorem never_beyond {m : Machine} {d : Nat} (hm : m.context.calls.Within d) (p : Program)
    (file : String) : m.Never (fun _ _ m' => ¬ m'.context.calls.Within d) p file :=
  have hlawful : (Regime.free (·.calls.Within d)).Lawful :=
    Regime.free_lawful (fun _ h => h) (fun _ _ h => h) (fun _ h => h) (fun _ h => h)
      fun h he => h.push he
  Regime.never hlawful (fun _ => id) (fun _ _ _ _ _ => trivial) (fun hc _ _ h => h hc)
    (fun _ _ => trivial) file hm (Regime.among_any m)

end Machine

namespace Eval

variable {α β : Type} {m : Machine}

/-- What comes next matters where the first computation leads to. -/
theorem andThen_congr {x : Eval α} {f g : α → Eval β}
    (h : ∀ a m', x m = .ok a m' → f a m' = g a m') : (x >>= f) m = (x >>= g) m := by
  change Eval.andThen x f m = Eval.andThen x g m
  unfold Eval.andThen
  cases e : x m with
  | ok a m' => exact h a m' e
  | error d m' => rfl
  | halt r m' => rfl

theorem inContext_congr {enter leave : Context → Context} {x y : Eval α}
    (h : x (overContext enter m) = y (overContext enter m)) :
    inContext enter leave x m = inContext enter leave y m := by
  unfold inContext
  rw [h]

/-- An error leaves a context as it is left, where leaving keeps the active calls. -/
theorem inContext_raise {enter leave : Context → Context} (hl : ∀ c, (leave c).calls = c.calls)
    (x : Eval α) (d : Diagnostic) :
    (inContext enter leave x >>= fun _ => raise d : Eval β) =
      inContext enter leave (x >>= fun _ => raise d) := by
  funext m
  change andThen (inContext enter leave x) _ m = inContext enter leave (andThen x _) m
  unfold andThen inContext
  dsimp only
  cases x (overContext enter m) with
  | ok a m' =>
    have h : (overContext leave m').context.calls = m'.context.calls := hl m'.context
    simp only [raise, h]
  | error d' m' => rfl
  | halt r m' => rfl

theorem inScope_raise (id : ScopeId) (x : Eval α) (d : Diagnostic) :
    (inScope id x >>= fun _ => raise d : Eval β) = inScope id (x >>= fun _ => raise d) :=
  funext fun m =>
    have hleave (c : Context) : (c.atScope m.context.scope).calls = c.calls := rfl
    congrFun (inContext_raise hleave x d) m

/-- Binding the parameters and failing then is failing in the scope of the parameters. -/
theorem bindArguments_fail (ev : Evaluator) (fn : FunctionDef) (home : ScopeId) (args : List Value)
    (loc : Location) (f : RuntimeFault) :
    (do bindArguments ev fn home args loc; fail f loc : Eval Value) =
      inFunction fn.displayName (do
        let id ← newChildOf home .function
        inScope id do
          let remaining ← bindParams ev loc fn.params args
          bindRest fn.rest? remaining loc
          fail f loc) := by
  unfold bindArguments fail inFunction
  have hleave (c : Context) : c.leaveFunction.calls = c.calls := rfl
  rw [inContext_raise hleave]
  simp only [andThen_assoc, inScope_raise]

/-- **At the limit.** A call that takes its arguments binds them and fails. -/
theorem callClosure_full {d : Nat} (hm : m.context.calls.Within d)
    (hd : m.context.calls.frames.length = d) (n : Nat) {fn : FunctionDef} (home : ScopeId)
    {args : List Value} (ha : fn.Accepts args.length) (loc : Location) :
    callClosure (.ofBound n) fn home args loc m =
      (do
        bindArguments (.ofBound n) fn home args loc
        fail (.callDepth d) loc : Eval Value) m := by
  let P := Regime.any
  -- Nothing of the body runs, so it does not matter which body it is.
  have hscope (m' : Machine) (hc : m'.context.calls = m.context.calls) (body : Eval Value) :
      (do
        let remaining ← bindParams (.ofBound n) loc fn.params args
        bindRest fn.rest? remaining loc
        inCall ⟨fn.displayName, loc⟩ body : Eval Value) m' =
      (do
        let remaining ← bindParams (.ofBound n) loc fn.params args
        bindRest fn.rest? remaining loc
        fail (.callDepth d) loc : Eval Value) m' := by
    refine andThen_congr fun remaining m₁ h₁ => andThen_congr fun _ m₂ h₂ => ?_
    have hparams : P.Agrees m'.context (Among P.functions)
        (bindParams (.ofBound n) loc fn.params args)
        (bindParams (.ofBound n) loc fn.params args) :=
      Regime.agrees_bindParams (Regime.any_alike n) trivial loc (fun _ _ => trivial)
        fun _ _ => Regime.among_anyValue _
    have hrest : P.Agrees m'.context (Among P.functions) (bindRest fn.rest? remaining loc)
        (bindRest fn.rest? remaining loc) :=
      .of_tame (Regime.tame_bindRest _ (fun _ _ => Regime.among_anyValue _) loc)
    have hc₁ := (h₁ ▸ hparams m' rfl (Regime.among_any m')).context_eq
    have hc₂ := (h₂ ▸ hrest m₁ hc₁ (Regime.among_any m₁)).context_eq
    unfold inCall
    rw [hc₂, hc, hm.push_full hd]
    rfl
  have hmost : ¬ (fn.rest?.isNone ∧ fn.params.length < args.length) := fun h =>
    absurd (ha.most (Option.isNone_iff_eq_none.mp h.1)) (by omega)
  rw [bindArguments_fail]
  unfold callClosure
  simp only [Nat.not_lt.mpr ha.least, Bool.and_eq_true, decide_eq_true_eq, hmost, if_false]
  have hcall (m' : Machine) (hc : m'.context.calls = m.context.calls) (body : Eval Value) :
      (do
        let id ← newChildOf home .function
        inScope id do
          let remaining ← bindParams (.ofBound n) loc fn.params args
          bindRest fn.rest? remaining loc
          inCall ⟨fn.displayName, loc⟩ body : Eval Value) m' =
      (do
        let id ← newChildOf home .function
        inScope id do
          let remaining ← bindParams (.ofBound n) loc fn.params args
          bindRest fn.rest? remaining loc
          fail (.callDepth d) loc : Eval Value) m' := by
    refine andThen_congr fun id m₁ h₁ => ?_
    cases h₁
    refine inContext_congr (hscope _ ?_ body)
    exact hc
  refine inContext_congr (hcall _ ?_ _)
  rfl

end Eval

/-! ### The limit -/

/-- **The limit on active calls.** On a machine with a limit and no active calls, as programs start
on, no step of a run is taken with more active calls than the limit. A call of a function at the
limit binds its parameters, defaults included, and fails without its body. -/
theorem call_depth_limited {m : Machine} {d : Nat} (hm : m.context.calls = .ofLimit (some d))
    (p : Program) (file : String) :
    m.Never (fun _ _ m' => ¬ m'.context.calls.Within d) p file ∧
    ∀ (m' : Machine) (n : Nat) (fn : FunctionDef) (home : ScopeId) (args : List Value)
      (loc : Location), m'.context.calls.Within d → m'.context.calls.frames.length = d →
      fn.Accepts args.length →
      Eval.callClosure (.ofBound n) fn home args loc m' =
        (do
          Eval.bindArguments (.ofBound n) fn home args loc
          Eval.fail (.callDepth d) loc : Eval Value) m' :=
  ⟨Machine.never_beyond (hm ▸ .ofLimit d) p file, fun _ n _ home _ loc hm' hd ha =>
    Eval.callClosure_full hm' hd n home ha loc⟩

/-- `function f(x: call g())`, where the body calls once more. -/
def nestingCalls : FunctionDef :=
  let call := Expr.call default (.ident default "g") [] false
  .mk (some "f") [.mk "x" (some call)] none [.giveBack default (some call)] default

/-- A machine in which the program and one function are active, and no more calls may be. -/
def Machine.atLimitOfTwo : Machine :=
  { context := { calls :=
    { frames := [⟨"h", default⟩, ⟨rootName, default⟩], depth := 2, limit := some 2 } } }

theorem call_depth_limited_two :
    (Machine.initial { maxDepth := some 2 }).Never (fun _ _ m' => ¬ m'.context.calls.Within 2)
      ⟨[.function default nestingCalls false, .call default (.ident default "f") [] none], default⟩
      "main.mimo" ∧
    Eval.callClosure (.ofBound 5) nestingCalls Scopes.root [] default .atLimitOfTwo =
      (do
        Eval.bindArguments (.ofBound 5) nestingCalls Scopes.root [] default
        Eval.fail (.callDepth 2) default : Eval Value) .atLimitOfTwo := by
  have hm : (Machine.initial { maxDepth := some 2 }).context.calls = .ofLimit (some 2) := by
    rw [(Machine.initial_settled _).1]
  have h := call_depth_limited hm
    ⟨[.function default nestingCalls false, .call default (.ident default "f") [] none], default⟩
    "main.mimo"
  exact ⟨h.1, h.2 .atLimitOfTwo 5 nestingCalls Scopes.root [] default ⟨rfl, Nat.le_refl 2⟩ rfl
    ⟨Nat.le_refl 0, fun _ => Nat.zero_le 1⟩⟩

end ScriptLang
