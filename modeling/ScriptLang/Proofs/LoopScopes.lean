import ScriptLang.Proofs.LaterScopes
import ScriptLang.Proofs.StatementParts

/-!
# The scopes of the rounds of a loop

Every round of a loop has a scope of its own, beside those of the other rounds. Whatever is bound in
one round or in functions made there, at whatever time, the other rounds do not see it.

* `Round` is what is remembered of a round, and `Eval.cycle` runs a loop and remembers its rounds.
  The two loops of the evaluator are such cycles (`Eval.rounds_eq`, `Eval.roundsOver_eq`).
* `Stmt.cycle` does so for a statement; a statement that is no loop has no rounds.
* `Round.Own` says that the scope of a round is new, and what it is like when the round starts.
* `Eval.cycle_stands` is the induction over the rounds, and `rounds_stand_apart` the main statement.
-/

namespace ScriptLang

/-! ### Rounds -/

/-- What a round is for. -/
inductive Turn where
  /-- For its statements alone. -/
  | plain
  /-- For an element, which gets a name. -/
  | item (name : String) (v : Value)

/-- The names that a round starts with. -/
def Turn.names : Turn → OrderedMap Binding
  | .plain => .empty
  | .item name v => .insert .empty name ⟨v, .set⟩

/-- Binds the name of a round in its scope. -/
def Turn.bind (loc : Location) (id : ScopeId) : Turn → Eval Unit
  | .plain => pure ()
  | .item name v => Eval.defineIn id name v .set loc

/-- The machine in which a round has its scope. -/
def Turn.enter (loc : Location) (turn : Turn) (m : Machine) : Machine :=
  (turn.bind loc m.scopes.table.size (m.withChild m.context.scope .block)).machine

/-- A round of a loop. -/
structure Round where
  turn : Turn
  /-- The machine in which the round begins, without a scope for it. -/
  before : Machine
  /-- The machine in which the statements of the round start. -/
  start : Machine

namespace Round

/-- The scope of a round. -/
def scope (r : Round) : ScopeId := r.start.context.scope

/-- The round that a turn begins in a machine. -/
def begin (loc : Location) (turn : Turn) (m : Machine) : Round :=
  ⟨turn, m, (turn.enter loc m).inContext (m.context.atScope m.scopes.table.size)⟩

end Round

/-- What the end of a round means for its loop: the end of the loop, or another round after a
value. -/
def Flow.afterRound (label : Option String) (last : Value) : Flow → Flow ⊕ Value
  | .normal v => .inr v
  | .giveBack v => .inl (.giveBack v)
  | .breakTo j => .inl (if j.targets label then .normal last else .breakTo j)
  | .continueTo j => if j.targets label then .inr last else .inl (.continueTo j)

namespace Eval

/-- A loop: the rounds that it runs, and how it ends. `next` tells whether there is another round,
and `last` is the value so far. -/
def cycle (next : Nat → Eval (Option Turn)) (loc : Location) (body : Eval Flow)
    (label : Option String) :
    Nat → Nat → Value → Machine → List Round × Outcome Flow
  | 0, _, _, m => ([], .halt .exhausted m)
  | bound + 1, i, last, m =>
    match next i m with
    | .error d m => ([], .error d m)
    | .halt r m => ([], .halt r m)
    | .ok none m => ([], .ok (.normal last) m)
    | .ok (some turn) m =>
      match inScope m.scopes.table.size body (turn.enter loc m) with
      | .error d m' => ([.begin loc turn m], .error d m')
      | .halt r m' => ([.begin loc turn m], .halt r m')
      | .ok flow m' =>
        match flow.afterRound label last with
        | .inl flow => ([.begin loc turn m], .ok flow m')
        | .inr last =>
          let rest := cycle next loc body label bound (i + 1) last m'
          (.begin loc turn m :: rest.1, rest.2)

/-- The turns of a loop with a condition, or without one. -/
def turns (ev : Evaluator) (test : Option Expr) : Eval (Option Turn) := do
  return if ← holds ev test then some .plain else none

/-- The turns of a loop over an array. The array is read anew in every round. -/
def turnsOver (name : String) (r : Ref) (i : Nat) : Eval (Option Turn) := do
  return (← element? r i).map (.item name)

variable {ev : Evaluator} {label : Option String}

/-- What the loops of the evaluator do at the end of a round. -/
def goOn (label : Option String) (last : Value) (again : Value → Eval Flow) : Flow → Eval Flow
  | .normal v => again v
  | .giveBack v => pure (.giveBack v)
  | .breakTo j => pure (if j.targets label then .normal last else .breakTo j)
  | .continueTo j => if j.targets label then again last else pure (.continueTo j)

/-- A loop that has another round. -/
theorem cycle_of_turn {next : Nat → Eval (Option Turn)} {loc : Location} {body : Eval Flow}
    {bound i : Nat} {last : Value} {again : Value → Eval Flow} {turn : Turn} {m m' : Machine}
    (hnext : next i m = .ok (some turn) m')
    (hagain : ∀ last n, again last n = (cycle next loc body label bound (i + 1) last n).2) :
    (inScope m'.scopes.table.size body >>= goOn label last again) (turn.enter loc m') =
      (cycle next loc body label (bound + 1) i last m).2 := by
  unfold cycle
  rw [hnext]
  dsimp only
  cases e : inScope m'.scopes.table.size body (turn.enter loc m') with
  | error d n => rw [bind_of_error e]
  | halt r n => rw [bind_of_halt e]
  | ok flow n =>
    rw [bind_of_ok e]
    cases flow with
    | normal v => exact hagain v n
    | giveBack v => rfl
    | breakTo j => rfl
    | continueTo j =>
      dsimp only [goOn, Flow.afterRound]
      split
      · exact hagain last n
      · rfl

/-- The rounds of a loop with a condition, or without one. -/
theorem rounds_eq (test : Option Expr) (body : List Stmt) (bound i : Nat) (last : Value)
    (m : Machine) : rounds ev test body label bound last m =
      (cycle (fun _ => turns ev test) default (runStatements ev body) label bound i last m).2 := by
  induction bound generalizing i last m with
  | zero => rfl
  | succ bound ih =>
    unfold rounds
    cases e : holds ev test m with
    | error d m₁ =>
      have hturn : turns ev test m = .error d m₁ := bind_of_error e
      rw [bind_of_error e, cycle, hturn]
    | halt r m₁ =>
      have hturn : turns ev test m = .halt r m₁ := bind_of_halt e
      rw [bind_of_halt e, cycle, hturn]
    | ok another m₁ =>
      have hturn : turns ev test m = .ok (if another then some .plain else none) m₁ := bind_of_ok e
      rw [bind_of_ok e]
      cases another with
      | false =>
        rw [cycle, hturn]
        rfl
      -- A block of its own is a new scope in which nothing is bound yet.
      | true => exact cycle_of_turn hturn fun last n => ih (i + 1) last n

/-- In a new scope a name can be declared. -/
theorem defineIn_new (m : Machine) (p : ScopeId) (role : ScopeRole) (name : String) (v : Value)
    (loc : Location) :
    defineIn m.scopes.table.size name v .set loc (m.withChild p role) =
      .ok () ((m.withChild p role).perform (.bind m.scopes.table.size name ⟨v, .set⟩)) := by
  refine alterScopes_of_plan ?_
  have hnew : (m.withChild p role).scopes.get m.scopes.table.size =
      { parent := some p, role := role } := Scopes.get_child_size m.scopes p role
  unfold Scopes.planDefine
  rw [hnew, OrderedMap.get?_empty]

theorem enter_item (name : String) (v : Value) (loc : Location) (m : Machine) :
    (Turn.item name v).enter loc m = (m.withChild m.context.scope .block).perform
      (.bind m.scopes.table.size name ⟨v, .set⟩) := by
  unfold Turn.enter
  change (defineIn _ name v .set loc _).machine = _
  rw [defineIn_new]
  rfl

theorem context_enter {turn : Turn} {loc : Location} {m : Machine} :
    (turn.enter loc m).context = m.context := by
  cases turn with
  | plain => rfl
  | item name v =>
    rw [enter_item]
    rfl

/-- The rounds of a loop over an array. -/
theorem roundsOver_eq (name : String) (r : Ref) (body : List Stmt) (loc : Location)
    (bound i : Nat) (last : Value) (m : Machine) :
    roundsOver ev name r body label loc bound i last m =
      (cycle (turnsOver name r) loc (runStatements ev body) label bound i last m).2 := by
  induction bound generalizing i last m with
  | zero => rfl
  | succ bound ih =>
    have e : element? r i m = .ok (m.heap.array r)[i]? m := rfl
    have hturn : turnsOver name r i m = .ok ((m.heap.array r)[i]?.map (Turn.item name)) m := rfl
    unfold roundsOver
    rw [bind_of_ok e]
    cases he : (m.heap.array r)[i]? with
    | none =>
      rw [he] at hturn
      rw [cycle, hturn]
      rfl
    | some item =>
      rw [he] at hturn
      have hnew : newChild .block m =
        .ok m.scopes.table.size (m.withChild m.context.scope .block) := rfl
      have hbind : defineIn m.scopes.table.size name item .set loc
          (m.withChild m.context.scope .block) = .ok () ((Turn.item name item).enter loc m) := by
        rw [enter_item, defineIn_new]
      dsimp only
      rw [bind_of_ok hnew, bind_of_ok hbind]
      exact cycle_of_turn hturn fun last n => ih (i + 1) last n

end Eval

/-! ### Loop statements -/

namespace Stmt

variable {ev : Evaluator}

/-- The rounds of a loop that has a label or none, and how it ends. The loop over an array has one
scope around its rounds. -/
def loopCycle (ev : Evaluator) (label : Option String) : Stmt → Machine → List Round × Outcome Flow
  | .whileLoop _ test body, m =>
    Eval.cycle (fun _ => Eval.turns ev (some test)) default (Eval.runStatements ev body) label
      ev.bound 0 .null m
  | .loop _ body, m =>
    Eval.cycle (fun _ => Eval.turns ev none) default (Eval.runStatements ev body) label
      ev.bound 0 .null m
  | .forEach _ name e body, m =>
    match ev.expr e m with
    | .ok (.array r) m =>
      let home := m.scopes.table.size
      let entered := m.withChild m.context.scope .block
      let inner := Eval.cycle (Eval.turnsOver name r) e.location (Eval.runStatements ev body) label
        ev.bound 0 .null
      ((inner (entered.inContext (m.context.atScope home))).1,
        Eval.inScope home (fun m => (inner m).2) entered)
    | _ => ([], Eval.forEach ev name e body label m)
  | s, m => ([], ev.stmt s m)

/-- The rounds of a statement, and how it ends. -/
def cycle (ev : Evaluator) : Stmt → Machine → List Round × Outcome Flow
  | .labeled _ label s, m => s.loopCycle ev (some label) m
  | .whileLoop loc test body, m => (Stmt.whileLoop loc test body).loopCycle ev none m
  | .loop loc body, m => (Stmt.loop loc body).loopCycle ev none m
  | .forEach loc name e body, m => (Stmt.forEach loc name e body).loopCycle ev none m
  | s, m => ([], Eval.statement ev s m)

theorem loopCycle_eq (label : Option String) (s : Stmt) (m : Machine) :
    (s.loopCycle ev label m).2 = Eval.labeled ev label s m := by
  cases s with
  | whileLoop loc test body => exact (Eval.rounds_eq ..).symm
  | loop loc body => exact (Eval.rounds_eq ..).symm
  | forEach loc name e body =>
    unfold loopCycle
    dsimp only
    cases he : ev.expr e m with
    | error d m₁ => rfl
    | halt r m₁ => rfl
    | ok v m₁ =>
      cases v with
      | array r =>
        have hrounds : Eval.roundsOver ev name r body label e.location ev.bound 0 .null = fun m =>
            (Eval.cycle (Eval.turnsOver name r) e.location (Eval.runStatements ev body) label
              ev.bound 0 .null m).2 :=
          funext fun m => Eval.roundsOver_eq name r body e.location ev.bound 0 .null m
        have hloop : Eval.labeled ev label (.forEach loc name e body) m = Eval.inBlock
            (Eval.roundsOver ev name r body label e.location ev.bound 0 .null) m₁ :=
          Eval.bind_of_ok he
        rw [hloop, hrounds]
        rfl
      | _ => rfl
  | _ => rfl

/-- Remembering the rounds changes nothing. -/
theorem cycle_eq (s : Stmt) (m : Machine) : (s.cycle ev m).2 = Eval.statement ev s m := by
  cases s with
  | labeled loc label s => exact loopCycle_eq ..
  | whileLoop loc test body => exact loopCycle_eq ..
  | loop loc body => exact loopCycle_eq ..
  | forEach loc name e body => exact loopCycle_eq ..
  | _ => rfl

end Stmt

/-! ### New scopes, one after the other -/

/-- **Own.** The scope of the round is new, inside of `home`, and has the names that the round
starts with. Otherwise the scopes are as they were. -/
structure Round.Own (home : ScopeId) (r : Round) : Prop where
  fresh : r.scope = r.before.scopes.table.size
  size : r.start.scopes.table.size = r.before.scopes.table.size + 1
  get : r.start.scopes.get r.scope = { vars := r.turn.names, parent := some home, role := .block }
  others : ∀ id < r.scope, r.start.scopes.get id = r.before.scopes.get id

/-- **Rounds.** Between two tables the rounds are taken one after the other, each with a scope of
its own inside of `home`. -/
inductive Rounds (home : ScopeId) : Scopes → List Round → Scopes → Prop
  | done {t t' : Scopes} (h : t.Extends t') : Rounds home t [] t'
  | round {t t' : Scopes} {r : Round} {rs : List Round} (h : t.Extends r.before.scopes)
    (ho : r.Own home) (hrest : Rounds home r.start.scopes rs t') : Rounds home t (r :: rs) t'

/-- A new scope for a round, and its name in it. -/
theorem Round.own_begin (loc : Location) (turn : Turn) (m : Machine) :
    (Round.begin loc turn m).Own m.context.scope := by
  have hnew := Scopes.get_child_size m.scopes m.context.scope .block
  have hold (id : ScopeId) (hid : id < m.scopes.table.size) :
      (m.scopes.child m.context.scope .block).2.get id = m.scopes.get id :=
    Scopes.get_child hid
  have hsize : (m.scopes.child m.context.scope .block).2.table.size = m.scopes.table.size + 1 := by
    simp [Scopes.child]
  cases turn with
  | plain => exact ⟨rfl, hsize, hnew, hold⟩
  | item name v =>
    have hstart : (Round.begin loc (.item name v) m).start.scopes =
        (m.scopes.child m.context.scope .block).2.bind m.scopes.table.size name ⟨v, .set⟩ := by
      change ((Turn.item name v).enter loc m).scopes = _
      rw [Eval.enter_item]
      rfl
    refine ⟨rfl, ?_, ?_, fun id hid => ?_⟩
    · rw [hstart]
      change _ = m.scopes.table.size + 1
      simp [Scopes.bind, hsize]
    · rw [hstart]
      change ((m.scopes.child m.context.scope .block).2.bind _ name _).get m.scopes.table.size = _
      rw [Scopes.bind, Scopes.get_modify_self (by rw [hsize]; exact Nat.lt_succ_self _), hnew]
      rfl
    · have hne : id ≠ m.scopes.table.size := Nat.ne_of_lt hid
      rw [hstart, Scopes.bind, Scopes.get_modify_of_ne hne]
      exact hold id hid

namespace Round.Own

variable {home : ScopeId} {r : Round}

theorem lt_size (h : r.Own home) : r.scope < r.start.scopes.table.size := by
  rw [h.size, h.fresh]
  exact Nat.lt_succ_self _

theorem extends_start (h : r.Own home) : r.before.scopes.Extends r.start.scopes := by
  refine ⟨h.size ▸ Nat.le_succ _, fun id hid => ?_⟩
  rw [h.others id (h.fresh ▸ hid)]

end Round.Own

namespace Rounds

variable {home : ScopeId} {t t' : Scopes} {r : Round} {rs : List Round}

theorem extends_all (h : Rounds home t rs t') : t.Extends t' := by
  induction h with
  | done h => exact h
  | round h ho _ ih => exact h.trans (ho.extends_start.trans ih)

/-- A table from before. -/
theorem after {t₀ : Scopes} (h₀ : t₀.Extends t) (h : Rounds home t rs t') :
    Rounds home t₀ rs t' := by
  cases h with
  | done h => exact .done (h₀.trans h)
  | round h ho hrest => exact .round (h₀.trans h) ho hrest

/-- Each round is taken between the two tables. -/
theorem of_mem (h : Rounds home t rs t') (hr : r ∈ rs) :
    t.Extends r.before.scopes ∧ r.Own home ∧ r.start.scopes.Extends t' := by
  induction h with
  | done _ => cases hr
  | round h ho hrest ih =>
    rcases List.mem_cons.mp hr with rfl | hr
    · exact ⟨h, ho, hrest.extends_all⟩
    · obtain ⟨hbefore, ho', hafter⟩ := ih hr
      exact ⟨h.trans (ho.extends_start.trans hbefore), ho', hafter⟩

/-- Scopes of later rounds stand behind those of earlier ones. -/
theorem pairwise (h : Rounds home t rs t') : rs.Pairwise fun r r' => r.scope < r'.scope := by
  induction h with
  | done _ => exact .nil
  | round h ho hrest ih =>
    refine .cons (fun r' hr' => ?_) ih
    obtain ⟨hbefore, ho', -⟩ := hrest.of_mem hr'
    rw [ho'.fresh]
    exact Nat.lt_of_lt_of_le ho.lt_size hbefore.size

end Rounds

/-! ### The run of a loop -/

namespace Eval

open Discipline

variable {c : Context} {next : Nat → Eval (Option Turn)} {body : Eval Flow}

/-- **Loops.** If what decides on rounds and what rounds do let scopes stand, the rounds are taken
one after the other, inside of the scope that the loop runs in. -/
theorem cycle_stands (hnext : ∀ i, standing.Obeys c none (next i))
    (hbody : ∀ id, standing.Obeys (c.atScope id) (some id) body) (loc : Location)
    (label : Option String) (bound i : Nat) (last : Value) {m : Machine} (hc : m.context = c)
    (hm : m.Placed none) :
    Rounds c.scope m.scopes (cycle next loc body label bound i last m).1
      (cycle next loc body label bound i last m).2.machine.scopes := by
  -- On the bound: what follows a round are the rounds below it.
  induction bound generalizing i last m with
  | zero => exact .done (.refl _)
  | succ bound ih =>
    have h := (hnext i).ends m hc
    unfold cycle
    cases e : next i m with
    | error d m₁ =>
      rw [e] at h
      exact .done (h.2 hm).2
    | halt r m₁ =>
      rw [e] at h
      exact .done (h hm).2
    | ok next? m₁ =>
      rw [e] at h
      obtain ⟨hc₁, hk₁⟩ := h
      obtain ⟨hm₁, hs₁⟩ := hk₁ hm
      cases next? with
      | none => exact .done hs₁
      | some turn =>
        have hcontext : (turn.enter loc m₁).context = c := context_enter.trans (hc₁.trans hc)
        have ho : (Round.begin loc turn m₁).Own c.scope :=
          hc ▸ hc₁ ▸ Round.own_begin loc turn m₁
        have hm₂ : (turn.enter loc m₁).Placed (some m₁.scopes.table.size) := by
          refine ⟨?_, ?_⟩
          · rw [context_enter]
            exact Nat.lt_of_lt_of_le hm₁.scope ho.extends_start.size
          · rintro id ⟨rfl⟩
            exact ho.lt_size
        -- The body runs in the scope of the round and leaves the loop where it was.
        have hround : standing.Obeys c (some m₁.scopes.table.size)
            (inScope m₁.scopes.table.size body) :=
          .inScope standing_oblivious.toLawful (hbody _)
        have h₂ := hround.ends _ hcontext
        dsimp only
        cases e₂ : inScope m₁.scopes.table.size body (turn.enter loc m₁) with
        | error d m₃ =>
          rw [e₂] at h₂
          exact .round hs₁ ho (.done (h₂.2 hm₂).2)
        | halt r m₃ =>
          rw [e₂] at h₂
          exact .round hs₁ ho (.done (h₂ hm₂).2)
        | ok flow m₃ =>
          rw [e₂] at h₂
          obtain ⟨hc₃, hk₃⟩ := h₂
          obtain ⟨hm₃, hs₃⟩ := hk₃ hm₂
          dsimp only
          cases flow.afterRound label last with
          | inl flow => exact .round hs₁ ho (.done hs₃)
          | inr last =>
            exact .round hs₁ ho ((ih (i + 1) last (hc₃.trans hcontext) hm₃.unroomed).after hs₃)

/-- Entering and leaving a scope changes the context alone. -/
theorem scopes_inScope {α : Type} (id : ScopeId) (x : Eval α) (m : Machine) :
    (inScope id x m).machine.scopes =
      (x (m.inContext (m.context.atScope id))).machine.scopes := by
  have henter : overContext (·.atScope id) m = m.inContext (m.context.atScope id) := rfl
  unfold inScope inContext
  rw [henter]
  cases x (m.inContext (m.context.atScope id)) <;> rfl

end Eval

namespace Stmt

open Discipline Eval

variable {ev : Evaluator} (hev : standing.Evaluates ev) {m : Machine}
include hev

/-- The rounds of a loop statement are inside of the scope that it runs in, or, over an array, of a
new one. -/
theorem loopCycle_stands (label : Option String) (s : Stmt) (hm : m.Placed none) :
    ∃ home t, m.scopes.Extends t ∧ home < t.table.size ∧
      Rounds home t (s.loopCycle ev label m).1 (s.loopCycle ev label m).2.machine.scopes := by
  have hL := standing_oblivious.toLawful
  have hturns (c : Context) (test : Option Expr) : standing.Obeys c none (turns ev test) :=
    (obeys_holds hL hev test).andThen hL fun _ => .of_local hL (.of_pure _)
  have hbody (c : Context) (body : List Stmt) (id : ScopeId) :
      standing.Obeys (c.atScope id) (some id) (runStatements ev body) :=
    obeys_runStatements (c := c.atScope id) hL hev fun _ _ => trivial
  cases s with
  | whileLoop loc test body =>
    exact ⟨m.context.scope, m.scopes, .refl _, hm.scope,
      cycle_stands (fun _ => hturns _ _) (hbody _ body) _ _ _ _ _ rfl hm⟩
  | loop loc body =>
    exact ⟨m.context.scope, m.scopes, .refl _, hm.scope,
      cycle_stands (fun _ => hturns _ _) (hbody _ body) _ _ _ _ _ rfl hm⟩
  | forEach loc name e body =>
    have h := (hev.expr m.context e).ends m rfl
    have hloop : standing.Obeys m.context none (Eval.forEach ev name e body label) :=
      obeys_forEach hL hev name e (fun _ _ => trivial) label
    unfold loopCycle
    dsimp only
    cases he : ev.expr e m with
    | error d m₁ => exact ⟨_, m.scopes, .refl _, hm.scope, .done (hloop.stands rfl hm).2⟩
    | halt r m₁ => exact ⟨_, m.scopes, .refl _, hm.scope, .done (hloop.stands rfl hm).2⟩
    | ok v m₁ =>
      rw [he] at h
      obtain ⟨hm₁, hs₁⟩ := h.2 hm
      cases v with
      | array r =>
        -- The rounds are inside of a block that is made for the loop.
        let entered := m₁.withChild m₁.context.scope .block
        let inner := entered.inContext (m₁.context.atScope m₁.scopes.table.size)
        have hentered : inner.Placed (some m₁.scopes.table.size) :=
          (hm₁.withChild m₁.context.scope .block).enter (.scope _)
        have hnext (i : Nat) : standing.Obeys inner.context none (turnsOver name r i) :=
          .andThen hL (.of_local hL (local_element? ..)) fun _ => .of_local hL (.of_pure _)
        have hrounds := cycle_stands hnext (hbody inner.context body) e.location label ev.bound 0
          .null rfl hentered.unroomed
        have hscopes := scopes_inScope m₁.scopes.table.size (fun m => (Eval.cycle (turnsOver name r)
          e.location (runStatements ev body) label ev.bound 0 .null m).2) entered
        exact ⟨m₁.scopes.table.size, inner.scopes, hs₁.trans (.of_child _ _ _), hentered.scope,
          (congrArg (Rounds _ _ _) hscopes).mpr hrounds⟩
      | _ => exact ⟨_, m.scopes, .refl _, hm.scope, .done (hloop.stands rfl hm).2⟩
  | _ =>
    exact ⟨_, m.scopes, .refl _, hm.scope,
      .done ((hev.stmt m.context _ trivial).stands rfl (hm.at_room _)).2⟩

/-- Other statements have no rounds. -/
theorem cycle_stands (s : Stmt) (hm : m.Placed none) :
    ∃ home t, m.scopes.Extends t ∧ home < t.table.size ∧
      Rounds home t (s.cycle ev m).1 (s.cycle ev m).2.machine.scopes := by
  have hL := standing_oblivious.toLawful
  have hs : standing.Obeys m.context (s.room m.context.scope) (Eval.statement ev s) :=
    obeys_statement hL hev standing_oblivious.imports trivial
  have hend := (hs.stands rfl (hm.at_room s)).2
  cases s with
  | labeled loc label s => exact loopCycle_stands hev (some label) s hm
  | whileLoop loc test body => exact loopCycle_stands hev none _ hm
  | loop loc body => exact loopCycle_stands hev none _ hm
  | forEach loc name e body => exact loopCycle_stands hev none _ hm
  | _ => exact ⟨m.context.scope, m.scopes, .refl _, hm.scope, .done hend⟩

end Stmt

/-! ### The main statement -/

/-- **Kept.** Nothing has happened to the bindings of a round: they are those from before, and what
a look-up from inside of the round found in there it finds again. -/
structure Round.Kept (r : Round) (t t' : Scopes) : Prop where
  bindings : t'.get r.scope = t.get r.scope
  lookups : ∀ name id s b, t.Descends s r.scope → t.find? name id = some (s, b) →
    t'.find? name id = some (s, b)

/-- **The rounds of a loop stand apart.** Let a statement run in a scope that exists, perhaps
watched for some steps. The scope of each of its rounds is new when the round begins, and holds what
the round is for when its statements start. The scopes differ, and at every later moment they are
all children of one scope. Whatever is declared, set or taken apart at such a moment in a scope that
descends from the scope of a round, it leaves the other rounds what they have. Indeed, only in a
scope that descends from the scope of a round can anything be done to the round. -/
theorem rounds_stand_apart (W : Nat → Question → Machine → Prop) (reason : Halt) (n : Nat)
    (s : Stmt) (m : Machine) (hm : m.context.scope < m.scopes.table.size) :
    let ev := Evaluator.watching W reason n
    let run := s.cycle ev m
    run.2 = Eval.statement ev s m ∧
    ∃ home,
      (∀ r ∈ run.1, r.Own home ∧ m.scopes.Extends r.before.scopes) ∧
      run.1.Pairwise (fun r r' => r.scope ≠ r'.scope) ∧
      ∀ later : Machine, run.2.machine.scopes.Extends later.scopes →
        (∀ r ∈ run.1, (later.scopes.get r.scope).parent = some home) ∧
        (∀ i j (hi : i < run.1.length) (hj : j < run.1.length), i ≠ j →
          later.scopes.Descends later.context.scope run.1[i].scope → ∀ x, Eval.Binds x →
            run.1[j].Kept later.scopes (x later).machine.scopes) ∧
        (∀ r ∈ run.1, ¬ later.scopes.Descends later.context.scope r.scope → ∀ x, Eval.Binds x →
          r.Kept later.scopes (x later).machine.scopes) := by
  intro ev run
  have hev : Discipline.standing.Evaluates ev := Discipline.evaluates_standing W reason n
  obtain ⟨home, t, ht, hhome, hrounds⟩ := Stmt.cycle_stands hev s ⟨hm, by simp⟩
  have hapart := hrounds.pairwise
  have hinside (r : Round) (hr : r ∈ run.1) : home < r.scope := by
    obtain ⟨hbefore, ho, -⟩ := hrounds.of_mem hr
    rw [ho.fresh]
    exact Nat.lt_of_lt_of_le hhome hbefore.size
  refine ⟨s.cycle_eq m, home, fun r hr => ?_, hapart.imp Nat.ne_of_lt, fun later hlater => ?_⟩
  · obtain ⟨hbefore, ho, -⟩ := hrounds.of_mem hr
    exact ⟨ho, ht.trans hbefore⟩
  have hparent (r : Round) (hr : r ∈ run.1) : (later.scopes.get r.scope).parent = some home := by
    obtain ⟨-, ho, hafter⟩ := hrounds.of_mem hr
    rw [(hafter.trans hlater).parent _ ho.lt_size, ho.get]
  have hkept (r : Round) (hr : r ∈ run.1)
      (hout : ¬ later.scopes.Descends later.context.scope r.scope) (x : Eval Unit)
      (hx : Eval.Binds x) : r.Kept later.scopes (x later).machine.scopes := by
    have hroot : r.scope ≠ Scopes.root := Nat.ne_of_gt (Nat.zero_lt_of_lt (hinside r hr))
    have hspares := ((hx.sparing hroot).ends later).2 hout
    exact ⟨hspares.inside _ (.refl _), fun name id s b => hspares.find?_eq⟩
  refine ⟨hparent, fun i j hi hj hij hd x hx => hkept _ (List.getElem_mem hj) (fun hd' => ?_) x hx,
    hkept⟩
  -- A scope that descends from two rounds would make them one.
  have hi' := List.getElem_mem hi
  have hj' := List.getElem_mem hj
  have hsame :=
    hd.eq_of_siblings (hparent _ hi') (hparent _ hj') (hinside _ hi') (hinside _ hj') hd'
  rw [List.pairwise_iff_getElem] at hapart
  rcases Nat.lt_or_gt_of_ne hij with h | h
  · exact Nat.ne_of_lt (hapart i j hi hj h) hsame
  · exact Nat.ne_of_gt (hapart j i hj hi h) hsame

/-- A loop over two elements, and the word `set` in the scope of the first round. -/
theorem rounds_stand_apart_two :
    let s := Stmt.forEach default "x" (.array default [.item (.literal default (.boolean true)),
      .item (.literal default .null)]) []
    let run := s.cycle (Evaluator.ofBound 4) {}
    let later := run.2.machine.inContext { scope := 2 }
    run.1.map Round.scope = [2, 3] ∧
    (later.scopes.get 3).vars.toList = [("x", ⟨.null, .set⟩)] ∧
    (Eval.setVariable "x" (.bool false) default later).machine.scopes.get 3 =
      later.scopes.get 3 := by
  intro s run later
  have h := rounds_stand_apart (fun _ _ _ => False) .internal 4 s {} (by decide)
  rw [Evaluator.watching_nothing] at h
  obtain ⟨-, home, -, -, h⟩ := h
  obtain ⟨-, hapart, -⟩ := h later (.refl _)
  have hscopes : run.1.map Round.scope = [2, 3] := by cbv
  have hlength : run.1.length = 2 := by simpa using congrArg List.length hscopes
  have hscope (i : Nat) (hi : i < run.1.length) : run.1[i].scope = 2 + i := by
    have hget := congrArg (fun l => l[i]?) hscopes
    rcases (by omega : i = 0 ∨ i = 1) with rfl | rfl <;> simpa [hi] using hget
  refine ⟨hscopes, by cbv, ?_⟩
  have hzero : 0 < run.1.length := by omega
  have hone : 1 < run.1.length := by omega
  have hkept := (hapart 0 1 hzero hone (by decide) ((hscope 0 hzero).symm ▸ .refl _) _
    (.setVariable "x" (.bool false) default)).bindings
  rwa [hscope 1 hone] at hkept

end ScriptLang
