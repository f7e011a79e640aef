import ScriptLang.Proofs.Imports
import ScriptLang.Proofs.InitialMachine
import ScriptLang.Proofs.ScopeTree
import ScriptLang.Proofs.Steps

/-!
# Scopes at later moments

A run makes scopes and never takes one away or puts it elsewhere, and it is always in a scope that
there is.

* `Discipline.standing` — the discipline that says so. It holds of the evaluator, and of every
  watched evaluator, too (`Discipline.evaluates_watching`).
* `scopes_stand` — at every moment of every run the current scope exists, and the scopes are those
  from before and perhaps more.

A moment of a run is the machine in which the run halts when it is watched for it, so what is shown
of machines that halt is shown of all moments.

What `bindings_append_only` says of single operations on scopes holds of whatever runs, since it
does nothing else to them: a name that is bound stays bound, behind the names from before, and its
binding stays of the kind that it was made as.

* `Discipline.growing` — the discipline that says so.
* `Scopes.Grows.own?` — what becomes of one binding.
* `scopes_grow` — at every moment of every answer and of every run of a program the scopes have
  grown since before.
-/

namespace ScriptLang

/-! ### Watched evaluators and the library -/

namespace Discipline

variable {D : Discipline} {ev : Evaluator} {c : Context} {i : Option ScopeId} {α : Type}
  {m : Machine}

/-- A computation that may be halted at once. -/
theorem Obeys.haltingIn (hD : D.Lawful) {P : Machine → Prop} {r : Halt} {x : Eval α}
    (hx : D.Obeys c i x) : D.Obeys c i (Eval.haltingIn P r x) := by
  refine ⟨fun m hm => ?_⟩
  by_cases h : P m
  · rw [Eval.haltingIn_of h]
    exact hD.alike_halts (.refl m)
  · rw [Eval.haltingIn_of_not h]
    exact hx.ends m hm

/-- An evaluator that halts before some questions. -/
theorem evaluates_halting (hD : D.Lawful) (hev : D.Evaluates ev)
    (P : Question → Machine → Prop) (r : Halt) : D.Evaluates (ev.halting P r) :=
  ⟨fun c e => (hev.expr c e).haltingIn hD, fun c s hs => (hev.stmt c s hs).haltingIn hD,
    fun c f args loc name => (hev.call c f args loc name).haltingIn hD⟩

/-- **Watched evaluators.** They obey at every depth, as the evaluator does. -/
theorem evaluates_watching (hD : D.Lawful) (hI : D.Imports)
    (W : Nat → Question → Machine → Prop) (r : Halt) (n : Nat) :
    D.Evaluates (Evaluator.watching W r n) := by
  induction n with
  | zero => exact evaluates_halting hD (evaluates_ofBound hD hI 0) _ r
  | succ n ih =>
    refine evaluates_halting hD ⟨fun c e => ?_, fun c s hs => ?_, fun c f args loc name => ?_⟩ _ r
    · exact obeys_expression hD ih e
    · exact obeys_statement hD ih hI hs
    · exact obeys_callValue hD ih f args loc name

/-- The library binds its functions in the root scope. -/
theorem obeys_install (hD : D.Lawful) : D.Obeys c (some Scopes.root) Machine.install := by
  have hbuiltins (fs : List CoreFn) :
      D.Obeys c (some Scopes.root) (Machine.installBuiltins fs) := by
    induction fs with
    | nil => exact .of_local hD (.of_pure ())
    | cons f fs ih =>
      refine .andThen hD (.of_local hD (.of_overHeap _)) fun id => ?_
      exact .andThen hD (.defineIn hD ..) fun _ => ih
  refine .andThen hD (hbuiltins _) fun _ => ?_
  exact .andThen hD (.of_local hD (Eval.local_buildStandard _)) fun array => .defineIn hD ..

/-- What holds of the machines that the discipline allows holds of the machine at the end. -/
theorem Obeys.machine {x : Eval α} {P : Machine → Prop} (hx : D.Obeys c i x) (hc : m.context = c)
    (hk : ∀ m', D.keeps i m m' → P m') (hh : ∀ m', D.halts i m m' → P m') : P (x m).machine := by
  have h := hx.ends m hc
  cases e : x m with
  | ok a m' => rw [e] at h; exact hk m' h.2
  | error d m' => rw [e] at h; exact hk m' h.2
  | halt r m' => rw [e] at h; exact hh m' h

end Discipline

/-! ### Standing scopes -/

/-- **Placed.** The current scope exists, and so does the one in which names may be bound. -/
structure Machine.Placed (i : Option ScopeId) (m : Machine) : Prop where
  scope : m.context.scope < m.scopes.table.size
  room : ∀ id, i = some id → id < m.scopes.table.size

namespace Machine.Placed

variable {m m' : Machine} {i : Option ScopeId}

theorem congr (h : m.Placed i) (hc : m'.context = m.context) (hs : m'.scopes = m.scopes) :
    m'.Placed i :=
  ⟨by rw [hc, hs]; exact h.scope, fun id hi => by rw [hs]; exact h.room id hi⟩

/-- The current scope exists in any case. -/
theorem unroomed (h : m.Placed i) : m.Placed none := ⟨h.scope, by simp⟩

/-- A statement may bind names in no other scope. -/
theorem at_room (h : m.Placed none) (s : Stmt) : m.Placed (s.room m.context.scope) := by
  refine ⟨h.scope, fun id hi => ?_⟩
  unfold Stmt.room at hi
  split at hi
  · exact Option.some.inj hi ▸ h.scope
  · cases hi

/-- The scopes that exist are scopes of a larger table. -/
theorem grow (h : m.Placed i) (hc : m'.context = m.context) (hs : m.scopes.Extends m'.scopes) :
    m'.Placed i :=
  ⟨Nat.lt_of_lt_of_le (hc ▸ h.scope) hs.size, fun id hi =>
    Nat.lt_of_lt_of_le (h.room id hi) hs.size⟩

/-- Where names may be bound, the scope can be entered. -/
theorem enter {c : Context} (h : m.Placed i) (he : m.context.Enters i c) :
    (m.inContext c).Placed i := by
  cases he with
  | scope id => exact ⟨h.room id rfl, h.room⟩
  | file id file => exact ⟨h.room id rfl, h.room⟩
  | function name => exact ⟨h.scope, h.room⟩
  | call calls => exact ⟨h.scope, h.room⟩

/-- A new scope exists once it is made. -/
theorem withChild (h : m.Placed none) (parent : ScopeId) (role : ScopeRole) :
    (m.withChild parent role).Placed (some m.scopes.table.size) := by
  have hsize : (m.withChild parent role).scopes.table.size = m.scopes.table.size + 1 := by
    simp [Machine.withChild, Scopes.child]
  refine ⟨?_, ?_⟩
  · rw [hsize]
    exact Nat.lt_succ_of_lt h.scope
  · rintro id ⟨rfl⟩
    rw [hsize]
    exact Nat.lt_succ_self _

end Machine.Placed

namespace Discipline

/-- The discipline of scopes that stand. Every statement may run anywhere. -/
def standing : Discipline where
  keeps i m m' := m.Placed i → m'.Placed i ∧ m.scopes.Extends m'.scopes
  halts i m m' := m.Placed i → m'.Placed none ∧ m.scopes.Extends m'.scopes
  fits _ _ := True

/-- What leaves the context and the scopes alone. -/
private theorem standing_same {m m' : Machine} {i : Option ScopeId}
    (hc : m'.context = m.context) (hs : m'.scopes = m.scopes) : standing.keeps i m m' :=
  fun hm => ⟨hm.congr hc hs, hs ▸ .refl _⟩

theorem standing_oblivious : standing.Oblivious where
  alike h := standing_same h.context h.scopes
  trans h h' hm := ⟨(h' (h hm).1).1, (h hm).2.trans (h' (h hm).1).2⟩
  widen {i m m'} h hm := by
    obtain ⟨hm', hs⟩ := h hm.unroomed
    exact ⟨⟨hm'.scope, fun id hi => Nat.lt_of_lt_of_le (hm.room id hi) hs.size⟩, hs⟩
  write _ _ hm := ⟨hm.grow rfl (.of_perform _ _), .of_perform _ _⟩
  child {m m' parent role} h hm := by
    obtain ⟨hm', hs⟩ := h (hm.withChild parent role)
    exact ⟨hm'.unroomed, (Scopes.Extends.of_child _ _ _).trans hs⟩
  moves he := by
    refine ⟨?_, ?_⟩
    · -- Back in its own context the machine stands as before, among more scopes.
      rintro m m' rfl hm' h hm
      have hs := (h (hm.enter he)).2
      exact ⟨hm.grow rfl hs, hs⟩
    · -- A halt leaves it where it halted.
      rintro m m' rfl h hm
      exact h (hm.enter he)
  alike_halts {i m m'} h hm :=
    ⟨(hm.congr h.context h.scopes).unroomed, h.scopes ▸ .refl _⟩
  keeps_halts h h' hm := ⟨(h' (h hm).1).1, (h hm).2.trans (h' (h hm).1).2⟩
  widen_halts h hm := h hm.unroomed
  child_halts {m m' parent role} h hm := by
    obtain ⟨hm', hs⟩ := h (hm.withChild parent role)
    exact ⟨hm', (Scopes.Extends.of_child _ _ _).trans hs⟩
  part _ _ := trivial
  atScope _ := trivial
  body := trivial
  program _ _ _ := trivial
  sources _ := standing_same rfl rfl
  probed _ := standing_same rfl rfl
  sought _ _ := standing_same rfl rfl
  importing c path := by
    refine ⟨?_, ?_⟩
    · rintro m m' rfl hm' h hm
      have hs := (h ⟨hm.scope, hm.room⟩).2
      exact ⟨hm.grow rfl hs, hs⟩
    · rintro m m' rfl h hm
      exact h ⟨hm.scope, hm.room⟩
  modules _ := standing_same rfl rfl
  note _ := standing_same rfl rfl

theorem evaluates_standing (W : Nat → Question → Machine → Prop) (r : Halt) (n : Nat) :
    standing.Evaluates (Evaluator.watching W r n) :=
  evaluates_watching standing_oblivious.toLawful standing_oblivious.imports W r n

end Discipline

/-! ### The main statement -/

open Discipline

/-- What obeys the discipline leaves a machine in a scope that exists. -/
theorem Discipline.Obeys.stands {α : Type} {x : Eval α} {c : Context} {i : Option ScopeId}
    {m : Machine} (hx : standing.Obeys c i x) (hc : m.context = c) (hm : m.Placed i) :
    (x m).machine.Placed none ∧ m.scopes.Extends (x m).machine.scopes :=
  hx.machine hc (fun _ h => ⟨(h hm).1.unroomed, (h hm).2⟩) fun _ h => h hm

/-- The machine that programs start on is in the root scope. -/
theorem placed_initial (setup : Machine.Setup) :
    (Machine.initial setup).Placed (some Scopes.root) := by
  have hbare : (Machine.bare setup).Placed (some Scopes.root) := by
    refine ⟨Nat.zero_lt_one, ?_⟩
    rintro id ⟨rfl⟩
    exact Nat.zero_lt_one
  have hinstall := obeys_install (c := (Machine.bare setup).context) standing_oblivious.toLawful
  have h := hinstall.stands rfl hbare
  rw [Machine.initial_eq]
  refine ⟨h.1.scope, ?_⟩
  rintro id ⟨rfl⟩
  exact Nat.lt_of_lt_of_le Nat.zero_lt_one h.2.size

/-- **Scopes stand.** At every moment of the answer to a question that is asked in a scope that
exists, the current scope exists, and the scopes are those from before and perhaps more. So it is at
every moment of the run of a program. -/
theorem scopes_stand (W : Nat → Question → Machine → Prop) (r : Halt) (n : Nat) :
    (∀ q m, m.context.scope < m.scopes.table.size →
      let m' := ((Evaluator.watching W r n).answer q m).machine
      m'.context.scope < m'.scopes.table.size ∧ m.scopes.Extends m'.scopes) ∧
    (∀ setup p file,
      let m' := (Machine.interpretOver (Evaluator.watching W r n) p file
        (Machine.initial setup)).machine
      m'.context.scope < m'.scopes.table.size) := by
  have hL := standing_oblivious.toLawful
  have hev := evaluates_standing W r n
  refine ⟨fun q m hm => ?_, fun setup p file => ?_⟩
  · have hplaced : m.Placed none := ⟨hm, by simp⟩
    have hanswer : (((Evaluator.watching W r n).answer q m).machine).Placed none ∧
        m.scopes.Extends ((Evaluator.watching W r n).answer q m).machine.scopes := by
      cases q with
      | expr e => exact (hev.expr m.context e).stands rfl hplaced
      | stmt s => exact (hev.stmt m.context s trivial).stands rfl (hplaced.at_room s)
      | call f args loc name => exact (hev.call m.context f args loc name).stands rfl hplaced
    exact ⟨hanswer.1.scope, hanswer.2⟩
  · have h : standing.Obeys (Machine.initial setup).context (some Scopes.root)
        (Machine.interpretOver (Evaluator.watching W r n) p file) :=
      obeys_interpretOver hL hev fun _ _ _ => trivial
    exact (h.stands rfl (placed_initial setup)).1.scope

end ScriptLang

namespace ScriptLang

/-! ### Bindings of a scope itself -/

/-- The binding of a name in a scope, whatever the scopes around it have. -/
def Scopes.own? (t : Scopes) (id : ScopeId) (name : String) : Option Binding :=
  (t.get id).vars.get? name

namespace Scopes

variable {t t' : Scopes} {id : ScopeId} {name : String} {b : Binding}

/-- A binding stays, of its kind. -/
theorem Grows.own? (h : t.Grows t') (hb : t.own? id name = some b) :
    ∃ b', t'.own? id name = some b' ∧ b.Keeps b' :=
  (h.scopes id (lt_size_of_get? hb)).bindings name b hb

end Scopes

/-! ### The discipline -/

namespace Discipline

/-- The discipline of scopes that grow. Every statement may run anywhere. -/
def growing : Discipline where
  keeps _ m m' := m.scopes.Grows m'.scopes
  halts _ m m' := m.scopes.Grows m'.scopes
  fits _ _ := True

/-- What leaves the scopes alone. -/
private theorem growing_same {m m' : Machine} (hs : m'.scopes = m.scopes) :
    m.scopes.Grows m'.scopes := by rw [hs]

theorem growing_oblivious : growing.Oblivious where
  alike h := growing_same h.scopes
  trans h h' := h.trans h'
  widen h := h
  write _ hf := Scopes.grows_perform hf
  child h := (Scopes.grows_child ..).trans h
  moves _ := ⟨fun _ _ h => h, fun _ h => h⟩
  alike_halts h := growing_same h.scopes
  keeps_halts h h' := h.trans h'
  widen_halts h := h
  child_halts h := (Scopes.grows_child ..).trans h
  part _ _ := trivial
  atScope _ := trivial
  body := trivial
  program _ _ _ := trivial
  sources _ := growing_same rfl
  probed _ := growing_same rfl
  sought _ _ := growing_same rfl
  importing _ _ := ⟨fun _ _ h => h, fun _ h => h⟩
  modules _ := growing_same rfl
  note _ := growing_same rfl

theorem evaluates_growing (n : Nat) : growing.Evaluates (Evaluator.ofBound n) :=
  evaluates_ofBound growing_oblivious.toLawful growing_oblivious.imports n

/-- What obeys the discipline lets scopes grow. -/
theorem Obeys.grows {α : Type} {x : Eval α} {c : Context} {i : Option ScopeId} {m : Machine}
    (hx : growing.Obeys c i x) (hc : m.context = c) : m.scopes.Grows (x m).machine.scopes :=
  hx.machine hc (fun _ h => h) fun _ h => h

end Discipline

/-! ### The main statement -/

open Discipline

/-- **Scopes grow.** At every moment of the answer to a question the scopes have grown. So it is at
every moment of the run of a program. -/
theorem scopes_grow (W : Nat → Question → Machine → Prop) (r : Halt) (n : Nat) :
    (∀ q (m : Machine), m.scopes.Grows ((Evaluator.watching W r n).answer q m).machine.scopes) ∧
    ∀ setup p file,
      let m := Machine.initial setup
      m.scopes.Grows
        (Machine.interpretOver (Evaluator.watching W r n) p file m).machine.scopes := by
  have hL := growing_oblivious.toLawful
  have hev := evaluates_watching hL growing_oblivious.imports W r n
  refine ⟨fun q m => ?_, fun setup p file => ?_⟩
  · cases q with
    | expr e => exact (hev.expr m.context e).grows rfl
    | stmt s => exact (hev.stmt m.context s trivial).grows rfl
    | call f args loc name => exact (hev.call m.context f args loc name).grows rfl
  · have h : growing.Obeys (Machine.initial setup).context (some Scopes.root)
        (Machine.interpretOver (Evaluator.watching W r n) p file) :=
      obeys_interpretOver hL hev fun _ _ _ => trivial
    exact h.grows rfl

end ScriptLang
