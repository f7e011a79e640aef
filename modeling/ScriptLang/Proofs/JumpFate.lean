import ScriptLang.Proofs.RegimeRuns

/-!
# What becomes of a jump

A statement that runs another one inside itself learns that this one ended with a jump, and then
hands the jump on, or, if it is a loop that the jump means, takes it.

* `Evaluator.Runs` says that running a statement comes to running one inside it, in some machine: if
  the evaluator halts there, so does the statement.
* `Flow.Fate` is what may become of a jump. A loop that is meant ends, or goes on with a next round
  (`Stmt.NextRounds`); anything else ends with the jump. Either way nothing else is run in between.
* `Eval.fate_of_runs` says that this is what becomes of every jump.

The walk is over two evaluators again, but now one of them halts at one place only, and a
computation either does not notice or has an end that we know (`Eval.Comes`).
-/

namespace ScriptLang

/-- The jump that a statement ends with. -/
def Flow.jump? : Flow → Option Jump
  | .breakTo j | .continueTo j => some j
  | _ => none

/-- Halts before it runs a statement in a machine. -/
noncomputable def Evaluator.haltingAt (ev : Evaluator) (s : Stmt) (m : Machine) (r : Halt) :
    Evaluator :=
  { ev with stmt := fun s' => Eval.haltingIn (fun m' => s' = s ∧ m' = m) r (ev.stmt s') }

/-- **Runs.** Running a statement comes to running another one, in the second machine. -/
def Evaluator.Runs (ev : Evaluator) (s : Stmt) (m : Machine) (s' : Stmt) (m' : Machine) : Prop :=
  ∀ r, Eval.statement (ev.haltingAt s' m' r) s m = .halt r m'

/-- The rounds that a loop may go on with. Those of a loop over an array run in its scope. -/
def Stmt.NextRoundsAs (ev : Evaluator) (label : Option String) : Stmt → Eval Flow → Prop
  | .whileLoop _ test body, x => ∃ k last, x = Eval.rounds ev (some test) body label k last
  | .loop _ body, x => ∃ k last, x = Eval.rounds ev none body label k last
  | .forEach _ name e body, x => ∃ id r k i last,
      x = Eval.inScope id (Eval.roundsOver ev name r body label e.location k i last)
  | _, _ => False

/-- The rounds that a loop statement, with a label or without, may go on with. -/
def Stmt.NextRounds (ev : Evaluator) : Stmt → Eval Flow → Prop
  | .labeled _ label s => s.NextRoundsAs ev (some label)
  | s => s.NextRoundsAs ev none

/-- **Fate.** How a statement ends that learns in a machine of a jump. -/
inductive Flow.Fate (loop? : Option (Option String)) (again : Eval Flow → Prop) (m : Machine) :
    Flow → Outcome Flow → Prop
  | passed {flow : Flow} (h : ∀ label j, loop? = some label → flow.jump? = some j →
      j.targets label = false) : Fate loop? again m flow (.ok flow m)
  | left {label : Option String} {j : Jump} (last : Value) (hl : loop? = some label)
      (h : j.targets label) : Fate loop? again m (.breakTo j) (.ok (.normal last) m)
  | next {label : Option String} {j : Jump} {x : Eval Flow} (hl : loop? = some label)
      (h : j.targets label) (hx : again x) : Fate loop? again m (.continueTo j) (x m)

namespace Flow.Fate

variable {loop? : Option (Option String)} {label : Option String} {again : Eval Flow → Prop}
  {m : Machine} {flow : Flow} {j : Jump} {o : Outcome Flow}

theorem eq_passed (h : flow.Fate loop? again m o) (hj : flow.jump? = some j)
    (hloop : ∀ label, loop? = some label → j.targets label = false) : o = .ok flow m := by
  cases h with
  | passed _ => rfl
  | left last hl ht =>
    cases hj
    exact absurd ht (by simp [hloop _ hl])
  | next hl ht _ =>
    cases hj
    exact absurd ht (by simp [hloop _ hl])

theorem of_break (h : (Flow.breakTo j).Fate (some label) again m o) (ht : j.targets label) :
    ∃ last, o = .ok (.normal last) m := by
  cases h with
  | passed h => exact absurd ht (by simp [h label j rfl rfl])
  | left last _ _ => exact ⟨last, rfl⟩

theorem of_continue (h : (Flow.continueTo j).Fate (some label) again m o) (ht : j.targets label) :
    ∃ x, again x ∧ o = x m := by
  cases h with
  | passed h => exact absurd ht (by simp [h label j rfl rfl])
  | next _ _ hx => exact ⟨_, hx, rfl⟩

end Flow.Fate

namespace Eval

variable {α β : Type} {c : Context} {m₀ : Machine} {A : Outcome α → Prop} {B : Outcome β → Prop}

/-- **Comes.** The interrupted computation is the same as the other one, or this ends as in `B`. -/
def Comes (c : Context) (B : Outcome α → Prop) (x : Eval α) (x' : Halt → Eval α) : Prop :=
  ∀ m, m.context = c → (∀ r, x' r m = x m) ∨ B (x m)

/-- The computation gives its context back. -/
def Keeps (c : Context) (x : Eval α) : Prop := ∃ p, Regime.any.Agrees c p x x

theorem Keeps.of_tame [Carries α] {x : Eval α} (hx : Tame Regime.any.functions x) : Keeps c x :=
  ⟨_, .of_tame hx⟩

theorem Keeps.context_eq {x : Eval α} (hx : Keeps c x) {m m₁ : Machine} (hm : m.context = c) {a : α}
    (h : x m = .ok a m₁) : m₁.context = c := by
  obtain ⟨p, hx⟩ := hx
  exact (h ▸ hx m hm (Regime.among_any m)).context_eq

theorem Keeps.context_eq_of_error {x : Eval α} (hx : Keeps c x) {m m₁ : Machine}
    (hm : m.context = c) {d : Diagnostic} (h : x m = .error d m₁) : m₁.context = c := by
  obtain ⟨p, hx⟩ := hx
  exact (h ▸ hx m hm (Regime.among_any m)).context_eq_of_error

section Keeps

variable {ev : Evaluator} (hev : Regime.any.Alike ev ev)
include hev

theorem keeps_stmt (s : Stmt) : Keeps c (ev.stmt s) :=
  ⟨Regime.any.Fits [], hev.stmt trivial trivial⟩

theorem keeps_runStatements (body : List Stmt) : Keeps c (runStatements ev body) :=
  ⟨Regime.any.Fits [], Regime.agrees_runStatements Regime.any_lawful hev trivial fun _ _ => trivial⟩

theorem keeps_inScope (body : List Stmt) (id : ScopeId) :
    Keeps c (inScope id (runStatements ev body)) :=
  ⟨Regime.any.Fits [], Regime.agrees_inScope Regime.any_lawful hev trivial (fun _ _ => trivial) id⟩

theorem keeps_inBlock (body : List Stmt) : Keeps c (inBlock (runStatements ev body)) :=
  ⟨Regime.any.Fits [], Regime.agrees_block Regime.any_lawful hev trivial fun _ _ => trivial⟩

theorem keeps_runCase (id : ScopeId) (guard : Option Expr) (body : List Stmt) :
    Keeps c (runCase ev id guard body) :=
  ⟨fun o => ∀ flow, o = some flow → Regime.any.Fits [] flow,
    Regime.agrees_runCase Regime.any_lawful hev trivial (fun _ _ => trivial)
      (fun _ _ => trivial) id⟩

theorem keeps_firstCase (v : Value) (cases : List Case) : Keeps c (firstCase ev v cases) :=
  ⟨fun o => ∀ flow, o = some flow → Regime.any.Fits [] flow,
    Regime.agrees_firstCase Regime.any_lawful hev trivial (Regime.among_anyValue v)
      (fun _ _ => trivial) fun _ _ => trivial⟩

end Keeps

/-- The end of an outcome in another scope. -/
def leaving (c : Context) : Outcome α → Outcome α
  | .ok a m => .ok a (overContext (·.atScope c.scope) m)
  | .error d m => .error d (overContext (·.atScope c.scope) m)
  | .halt r m => .halt r m

theorem inScope_eq (id : ScopeId) (x : Eval α) (m : Machine) :
    inScope id x m = leaving m.context (x (overContext (·.atScope id) m)) := by
  unfold inScope inContext leaving
  cases x (overContext (·.atScope id) m) <;> rfl

namespace Comes

variable {x : Eval α} {x' : Halt → Eval α} {f : α → Eval β} {f' : Halt → α → Eval β} {a : α}

theorem of_eq : Comes c A x fun _ => x := fun _ _ => .inl fun _ => rfl

/-- What comes after a computation that may be interrupted. -/
theorem andThen (hx : Comes c (· = .ok a m₀) x x') (hk : Keeps c x)
    (hB : B (f a m₀)) (hf : ∀ b, Comes c B (f b) fun r => f' r b) :
    Comes c B (x >>= f) fun r => x' r >>= f' r := by
  intro m hm
  change (∀ r, Eval.andThen (x' r) (f' r) m = Eval.andThen x f m) ∨ B (Eval.andThen x f m)
  unfold Eval.andThen
  rcases hx m hm with h | h
  · simp only [h]
    cases e : x m with
    | ok b m₁ => exact hf b m₁ (hk.context_eq hm e)
    | error d m₁ => exact .inl fun _ => rfl
    | halt r m₁ => exact .inl fun _ => rfl
  · rw [h]
    exact .inr hB

/-- What comes after a computation that does not ask for statements. -/
theorem after (hk : Keeps c x) (hf : ∀ b, Comes c B (f b) fun r => f' r b) :
    Comes c B (x >>= f) fun r => x >>= f' r := by
  intro m hm
  change (∀ r, Eval.andThen x (f' r) m = Eval.andThen x f m) ∨ B (Eval.andThen x f m)
  unfold Eval.andThen
  cases e : x m with
  | ok b m₁ => exact hf b m₁ (hk.context_eq hm e)
  | error d m₁ => exact .inl fun _ => rfl
  | halt r m₁ => exact .inl fun _ => rfl

theorem imp {A' : Outcome α → Prop} (hx : Comes c A x x') (h : ∀ o, A o → A' o) :
    Comes c A' x x' := fun m hm => (hx m hm).imp_right (h _)

/-- What is no loop ends with the jump. -/
theorem passed {x : Eval Flow} {x' : Halt → Eval Flow} {flow : Flow} {again : Eval Flow → Prop}
    (hx : Comes c (· = .ok flow m₀) x x') : Comes c (flow.Fate none again m₀) x x' :=
  hx.imp fun _ h => h ▸ .passed fun _ _ hl => nomatch hl

theorem ite {b : Prop} [Decidable b] {y : Eval α} {y' : Halt → Eval α} (hx : Comes c A x x')
    (hy : Comes c A y y') : Comes c A (if b then x else y) fun r => if b then x' r else y' r := by
  split
  · exact hx
  · exact hy

theorem inScope {id : ScopeId} {B : Outcome α → Prop} (hx : Comes (c.atScope id) A x x')
    (hAB : ∀ o, A o → B (leaving c o)) :
    Comes c B (Eval.inScope id x) fun r => Eval.inScope id (x' r) := by
  rintro m rfl
  simp only [inScope_eq]
  rcases hx (overContext (·.atScope id) m) rfl with h | h
  · exact .inl fun r => by rw [h]
  · exact .inr (hAB _ h)

theorem handled {h : Diagnostic → Eval α} {h' : Halt → Diagnostic → Eval α}
    (hx : Comes c (· = .ok a m₀) x x') (hk : Keeps c x)
    (hh : ∀ d, Comes c (· = .ok a m₀) (h d) fun r => h' r d) :
    Comes c (· = .ok a m₀) (handle x h) fun r => handle (x' r) (h' r) := by
  intro m hm
  unfold handle
  rcases hx m hm with h | h
  · simp only [h]
    cases e : x m with
    | ok b m₁ => exact .inl fun _ => rfl
    | error d m₁ => exact hh d m₁ (hk.context_eq_of_error hm e)
    | halt r m₁ => exact .inl fun _ => rfl
  · rw [h]
    exact .inr rfl

end Comes

/-! ### The walk -/

/-- What a loop makes of a jump out of a round, as the rules have it. -/
theorem fate_of_round {flow : Flow} {j : Jump} {label : Option String} {again : Eval Flow → Prop}
    {last : Value} {onward : Value → Eval Flow} {goOn : Eval Flow} {m : Machine}
    (hagain : again goOn) :
    flow.jump? = some j → flow.Fate (some label) again m
      ((match flow with
        | .normal v => onward v
        | .giveBack v => pure (.giveBack v)
        | .breakTo j => pure (if j.targets label then .normal last else .breakTo j)
        | .continueTo j => if j.targets label then goOn else pure (.continueTo j) :
        Eval Flow) m) := by
  intro hj
  cases flow with
  | normal v => cases hj
  | giveBack v => cases hj
  | breakTo j =>
    dsimp only
    split
    · exact .left last rfl ‹_›
    · -- A jump with the label of another loop is passed on.
      rename_i hnot
      refine .passed fun _ _ hl h => ?_
      cases hl
      cases h
      simpa using hnot
  | continueTo j =>
    dsimp only
    split
    · exact .next rfl ‹_› hagain
    · rename_i hnot
      refine .passed fun _ _ hl h => ?_
      cases hl
      cases h
      simpa using hnot

section Walk

variable {ev : Evaluator} (hev : Regime.any.Alike ev ev) {s' : Stmt} {m' m'' : Machine}
  {flow : Flow}
  {j : Jump} (hj : flow.jump? = some j) (hflow : ev.stmt s' m' = .ok flow m'')
include hev hflow

/-- A statement that may be the one. -/
theorem comes_stmt (s : Stmt) : Comes c (· = .ok flow (m''.inContext c)) (ev.stmt s)
    fun r => (ev.haltingAt s' m' r).stmt s := by
  rintro m rfl
  -- It is the one that was watched, from the machine that was watched, or it runs alike.
  by_cases h : s = s' ∧ m = m'
  · obtain ⟨rfl, rfl⟩ := h
    have hm : m''.context = m.context := (keeps_stmt hev s).context_eq rfl hflow
    refine .inr (hflow.trans ?_)
    rw [← hm]
    rfl
  · exact .inl fun r => haltingIn_of_not (P := fun m₁ => s = s' ∧ m₁ = m') h

include hj

theorem comes_runFrom (body : List Stmt) (last : Value) :
    Comes c (· = .ok flow (m''.inContext c)) (runFrom ev body last)
      fun r => runFrom (ev.haltingAt s' m' r) body last := by
  induction body generalizing last with
  | nil => exact .of_eq
  | cons s rest ih =>
    refine .andThen (comes_stmt hev hflow s) (keeps_stmt hev s) ?_ fun v => ?_
    · cases flow with
      | normal v => cases hj
      | _ => rfl
    · cases v with
      | normal v => exact ih v
      | _ => exact .of_eq

theorem comes_runStatements (body : List Stmt) :
    Comes c (· = .ok flow (m''.inContext c)) (runStatements ev body)
      fun r => runStatements (ev.haltingAt s' m' r) body :=
  .after (.of_tame (Regime.tame_hoist fun _ _ _ _ => trivial)) fun _ =>
    comes_runFrom hev hj hflow body .null

theorem comes_inScope (body : List Stmt) (id : ScopeId) :
    Comes c (· = .ok flow (m''.inContext c)) (inScope id (runStatements ev body))
      fun r => inScope id (runStatements (ev.haltingAt s' m' r) body) := by
  refine .inScope (comes_runStatements hev hj hflow body) ?_
  rintro _ rfl
  rfl

theorem comes_inBlock (body : List Stmt) :
    Comes c (· = .ok flow (m''.inContext c)) (inBlock (runStatements ev body))
      fun r => inBlock (runStatements (ev.haltingAt s' m' r) body) :=
  .after (.of_tame (tame_newChild _)) fun id => comes_inScope hev hj hflow body id

/-! ### Handlers and cases -/

theorem comes_runHandler (name : Option String) (handler : List Stmt) (d : Diagnostic) :
    Comes c (· = .ok flow (m''.inContext c)) (runHandler ev name handler d)
      fun r => runHandler (ev.haltingAt s' m' r) name handler d := by
  refine .after (.of_tame (tame_newChild _)) fun id => ?_
  cases name with
  | none =>
    exact .after (x := pure ()) (.of_tame (.of_pure trivial)) fun _ =>
      comes_inScope hev hj hflow handler id
  | some n =>
    refine .after (.of_tame (tame_newObject fun _ _ => ⟨trivial, Regime.among_anyValue _⟩))
      fun v => ?_
    refine .after (.of_tame (tame_defineIn (Regime.among_anyValue v))) fun _ => ?_
    exact comes_inScope hev hj hflow handler id

theorem comes_attempt (body : List Stmt) (name : Option String) (handler : Option (List Stmt)) :
    Comes c (· = .ok flow (m''.inContext c)) (attempt ev body name handler)
      fun r => attempt (ev.haltingAt s' m' r) body name handler := by
  cases handler with
  | none => exact comes_inBlock hev hj hflow body
  | some handler =>
    exact .handled (comes_inBlock hev hj hflow body) (keeps_inBlock hev body) fun d =>
      comes_runHandler hev hj hflow name handler d

theorem comes_runCase (id : ScopeId) (guard : Option Expr) (body : List Stmt) :
    Comes c (· = .ok (some flow) (m''.inContext c)) (runCase ev id guard body)
      fun r => runCase (ev.haltingAt s' m' r) id guard body := by
  -- A condition is an expression, and the evaluator halts at statements only.
  have hhold (r : Halt) : holds (ev.haltingAt s' m' r) guard = holds ev guard := by
    cases guard <;> rfl
  have hin : Comes (c.atScope id) (· = .ok (some flow) (m''.inContext (c.atScope id)))
      (do if ← holds ev guard then some <$> runStatements ev body else return none)
      fun r => do
        if ← holds ev guard then some <$> runStatements (ev.haltingAt s' m' r) body
        else return none := by
    refine .after ⟨_, Regime.agrees_holds hev trivial fun _ _ => trivial⟩ fun goOn => .ite ?_ .of_eq
    exact .andThen (comes_runStatements hev hj hflow body) (keeps_runStatements hev body) rfl
      fun _ => .of_eq
  unfold runCase
  simp only [hhold]
  refine .inScope hin ?_
  rintro _ rfl
  rfl

theorem comes_firstCase (v : Value) (cases : List Case) :
    Comes c (· = .ok (some flow) (m''.inContext c)) (firstCase ev v cases)
      fun r => firstCase (ev.haltingAt s' m' r) v cases := by
  induction cases with
  | nil => exact .of_eq
  | cons case rest ih =>
    obtain ⟨pattern, guard, body, loc⟩ := case
    refine .after (.of_tame (Regime.tame_caseNames (Regime.among_anyValue v) pattern))
      fun names => ?_
    cases names with
    | none => exact ih
    | some names =>
      refine .after (.of_tame (tame_newChild _)) fun id => ?_
      refine .after (.of_tame (Regime.tame_defineAll id loc fun _ _ =>
        ⟨trivial, Regime.among_anyValue _⟩)) fun _ => ?_
      refine .andThen (comes_runCase hev hj hflow id guard body)
        (keeps_runCase hev id guard body) rfl
        fun found => ?_
      cases found with
      | none => exact ih
      | some flow => exact .of_eq

theorem comes_choose (e : Expr) (cases : List Case) :
    Comes c (· = .ok flow (m''.inContext c)) (choose ev e cases)
      fun r => choose (ev.haltingAt s' m' r) e cases := by
  refine .after ⟨_, hev.expr trivial trivial⟩ fun v => ?_
  exact .andThen (comes_firstCase hev hj hflow v cases) (keeps_firstCase hev v cases) rfl
    fun _ => .of_eq

/-! ### Loops -/

theorem comes_rounds {test : Option Expr} {body : List Stmt} {label : Option String}
    {again : Eval Flow → Prop} (hagain : ∀ k last, again (rounds ev test body label k last))
    (bound : Nat) (last : Value) :
    Comes c (flow.Fate (some label) again (m''.inContext c))
      (rounds ev test body label bound last)
      fun r => rounds (ev.haltingAt s' m' r) test body label bound last := by
  have hhold (r : Halt) : holds (ev.haltingAt s' m' r) test = holds ev test := by cases test <;> rfl
  -- The statement runs in this round, and then the jump meets the loop, or it runs in a later one.
  induction bound generalizing last with
  | zero => exact .of_eq
  | succ bound ih =>
    unfold rounds
    simp only [hhold]
    refine .after ⟨_, Regime.agrees_holds hev trivial fun _ _ => trivial⟩ fun goOn => .ite ?_ .of_eq
    refine .andThen (comes_inBlock hev hj hflow body) (keeps_inBlock hev body) ?_ fun v => ?_
    · exact fate_of_round (hagain bound last) hj
    · cases v with
      | normal v => exact ih v
      | giveBack v => exact .of_eq
      | breakTo j => exact .of_eq
      | continueTo j => exact .ite (ih last) .of_eq

theorem comes_roundsOver {name : String} {r : Ref} {body : List Stmt} {label : Option String}
    {loc : Location} {again : Eval Flow → Prop}
    (hagain : ∀ k i last, again (roundsOver ev name r body label loc k i last))
    (bound i : Nat) (last : Value) :
    Comes c (flow.Fate (some label) again (m''.inContext c))
      (roundsOver ev name r body label loc bound i last)
      fun r' => roundsOver (ev.haltingAt s' m' r') name r body label loc bound i last := by
  induction bound generalizing i last with
  | zero => exact .of_eq
  | succ bound ih =>
    unfold roundsOver
    refine .after (.of_tame (tame_element? r i)) fun item => ?_
    cases item with
    | none => exact .of_eq
    | some item =>
      refine .after (.of_tame (tame_newChild _)) fun id => ?_
      refine .after (.of_tame (tame_defineIn (Regime.among_anyValue item))) fun _ => ?_
      refine .andThen (comes_inScope hev hj hflow body id) (keeps_inScope hev body id) ?_
        fun v => ?_
      · exact fate_of_round (hagain bound (i + 1) last) hj
      · cases v with
        | normal v => exact ih (i + 1) v
        | giveBack v => exact .of_eq
        | breakTo j => exact .of_eq
        | continueTo j => exact .ite (ih (i + 1) last) .of_eq

/-- The rounds over an array run in a scope, which a jump leaves. -/
theorem comes_forEach {name : String} {e : Expr} {body : List Stmt} {label : Option String}
    {again : Eval Flow → Prop} (hagain : ∀ id r k i last,
      again (inScope id (roundsOver ev name r body label e.location k i last))) :
    Comes c (flow.Fate (some label) again (m''.inContext c)) (forEach ev name e body label)
      fun r => forEach (ev.haltingAt s' m' r) name e body label := by
  refine .after ⟨_, hev.expr trivial trivial⟩ fun v => ?_
  cases v with
  | array r =>
    refine .after (.of_tame (tame_newChild _)) fun id => ?_
    have hrounds : Comes (c.atScope id)
        (flow.Fate (some label) (fun x => again (inScope id x)) (m''.inContext (c.atScope id)))
        (roundsOver ev name r body label e.location ev.bound 0 .null)
        fun r' =>
          roundsOver (ev.haltingAt s' m' r') name r body label e.location ev.bound 0 .null :=
      comes_roundsOver hev hj hflow (hagain id r) ev.bound 0 .null
    refine hrounds.inScope ?_
    rintro _ (h | ⟨last, hl, h⟩ | ⟨hl, h, hx⟩)
    · exact .passed h
    · exact .left last hl h
    · exact .next hl h hx
  | _ => exact .of_eq

/-! ### Statements -/

theorem comes_labeled (loc : Location) (label : String) (s : Stmt) :
    Comes c (flow.Fate (Stmt.labeled loc label s).loop? ((Stmt.labeled loc label s).NextRounds ev)
        (m''.inContext c))
      (labeled ev (some label) s) fun r => labeled (ev.haltingAt s' m' r) (some label) s := by
  cases s with
  | whileLoop loc test body =>
    exact comes_rounds hev hj hflow (fun k last => ⟨k, last, rfl⟩) ev.bound .null
  | loop loc body =>
    exact comes_rounds hev hj hflow (fun k last => ⟨k, last, rfl⟩) ev.bound .null
  | forEach loc name e body =>
    exact comes_forEach hev hj hflow fun id r k i last => ⟨id, r, k, i, last, rfl⟩
  | _ => exact (comes_stmt hev hflow _).passed

theorem comes_cond (loc : Location) (test : Expr) (yes : List Stmt) (no : Else) :
    Comes c (· = .ok flow (m''.inContext c)) (statement ev (.cond loc test yes no))
      fun r => statement (ev.haltingAt s' m' r) (.cond loc test yes no) := by
  refine .after ⟨_, hev.expr trivial trivial⟩ fun v => .ite (comes_inBlock hev hj hflow yes) ?_
  cases no with
  | nothing => exact .of_eq
  | block body => exact comes_inBlock hev hj hflow body
  | elseIf next => exact comes_stmt hev hflow next

theorem comes_guard (loc : Location) (test : Expr) (no : List Stmt) :
    Comes c (· = .ok flow (m''.inContext c)) (statement ev (.guard loc test no))
      fun r => statement (ev.haltingAt s' m' r) (.guard loc test no) := by
  refine .after ⟨_, hev.expr trivial trivial⟩ fun v => .ite .of_eq ?_
  refine .andThen (comes_inBlock hev hj hflow no) (keeps_inBlock hev no) ?_ fun _ => .of_eq
  cases flow with
  | normal v => cases hj
  | _ => rfl

/-- **Statements.** -/
theorem comes_statement {s : Stmt} (hin : s' ∈ s.inside) :
    Comes c (flow.Fate s.loop? (s.NextRounds ev) (m''.inContext c)) (statement ev s)
      fun r => statement (ev.haltingAt s' m' r) s := by
  cases s with
  | cond loc test yes no => exact (comes_cond hev hj hflow loc test yes no).passed
  | guard loc test no => exact (comes_guard hev hj hflow loc test no).passed
  | whileLoop loc test body =>
    exact comes_rounds hev hj hflow (fun k last => ⟨k, last, rfl⟩) ev.bound .null
  | loop loc body =>
    exact comes_rounds hev hj hflow (fun k last => ⟨k, last, rfl⟩) ev.bound .null
  | forEach loc name e body =>
    exact comes_forEach hev hj hflow fun id r k i last => ⟨id, r, k, i, last, rfl⟩
  | labeled loc label s => exact comes_labeled hev hj hflow loc label s
  | attempt loc body name handler => exact (comes_attempt hev hj hflow body name handler).passed
  | choose loc e cases => exact (comes_choose hev hj hflow e cases).passed
  -- The others run no statements.
  | _ => simp [Stmt.inside, Stmt.parts] at hin

end Walk

/-- **The fate of a jump.** What a statement makes of a jump out of a statement inside it. -/
theorem fate_of_runs {n : Nat} {s s' : Stmt} {m m' m'' : Machine} {flow : Flow} {j : Jump}
    (hin : s' ∈ s.inside) (hruns : (Evaluator.ofBound n).Runs s m s' m')
    (hflow : (Evaluator.ofBound n).stmt s' m' = .ok flow m'') (hj : flow.jump? = some j) :
    flow.Fate s.loop? (s.NextRounds (.ofBound n)) (m''.inContext m.context)
      ((Evaluator.ofBound (n + 1)).stmt s m) := by
  rw [Evaluator.ofBound_succ]
  rcases comes_statement (Regime.any_alike n) hj hflow hin m rfl with h | h
  -- A statement that does not notice the halt would halt for every reason.
  · have hall (r : Halt) : statement (.ofBound n) s m = .halt r m' := (h r).symm.trans (hruns r)
    cases (hall .internal).symm.trans (hall .unordered)
  · exact h

end Eval

/-! ### From a jump to its loop -/

namespace Evaluator

/-- Running the first statement comes to the second one through statements inside one another that
are no loops which the jump means. Every one is run one level deeper than the one around it. -/
inductive Reaches (j : Jump) : Nat → Stmt → Machine → Nat → Stmt → Machine → Prop
  | refl {n s m} : Reaches j n s m n s m
  | step {n s m s' m' k t mt} (hin : s' ∈ s.inside) (hruns : (ofBound n).Runs s m s' m')
      (hloop : ∀ label, s.loop? = some label → j.targets label = false)
      (hrest : Reaches j n s' m' k t mt) : Reaches j (n + 1) s m k t mt

/-- Running a loop that the jump means comes to a statement, and no such loop is in between. -/
inductive Catches (j : Jump) : Nat → Stmt → Machine → Nat → Stmt → Machine → Prop
  | intro {n s m s' m' k t mt label} (hl : s.loop? = some label) (ht : j.targets label)
      (hin : s' ∈ s.inside) (hruns : (ofBound n).Runs s m s' m')
      (hrest : Reaches j n s' m' k t mt) : Catches j (n + 1) s m k t mt

variable {j : Jump} {n k : Nat} {s t : Stmt} {m mt m' : Machine} {flow : Flow}

/-- **Passing.** Up to the loop that it means a jump is handed on, and nothing else is run. -/
theorem Reaches.passes (h : Reaches j n s m k t mt)
    (ht : (ofBound k).stmt t mt = .ok flow m') (hj : flow.jump? = some j) :
    (ofBound n).stmt s m = .ok flow (m'.inContext m.context) := by
  induction h with
  | refl =>
    rw [ht, ← (Eval.keeps_stmt (Regime.any_alike _) _).context_eq rfl ht]
    rfl
  | step hin hruns hloop _ ih => exact (Eval.fate_of_runs hin hruns (ih ht) hj).eq_passed hj hloop

/-- **Leaving.** The loop that a jump out of it means ends on its own. -/
theorem Catches.leaves (h : Catches j n s m k t mt)
    (ht : (ofBound k).stmt t mt = .ok (.breakTo j) m') :
    ∃ last, (ofBound n).stmt s m = .ok (.normal last) (m'.inContext m.context) := by
  cases h with
  | intro hl hmeant hin hruns hrest =>
    have hfate := Eval.fate_of_runs hin hruns (hrest.passes ht rfl) rfl
    rw [hl] at hfate
    exact hfate.of_break hmeant

/-- **Going on.** The loop that a jump to its next round means goes on from there. -/
theorem Catches.goesOn (h : Catches j (n + 1) s m k t mt)
    (ht : (ofBound k).stmt t mt = .ok (.continueTo j) m') :
    ∃ x, s.NextRounds (ofBound n) x ∧ (ofBound (n + 1)).stmt s m = x (m'.inContext m.context) := by
  cases h with
  | intro hl hmeant hin hruns hrest =>
    have hfate := Eval.fate_of_runs hin hruns (hrest.passes ht rfl) rfl
    rw [hl] at hfate
    exact hfate.of_continue hmeant

end Evaluator

end ScriptLang
