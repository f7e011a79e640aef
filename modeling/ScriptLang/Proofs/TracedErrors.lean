import ScriptLang.Proofs.AttributionRuns
import ScriptLang.Proofs.SmallerParts

/-!
# Errors show the calls that they were raised in

Nothing is said here about files or places, so any file may have any text and the attribution is
`Attribution.anything`. What it leaves is which calls an error shows (`CallStack.Traces`).

* `errors_show_their_calls` is the main statement.
-/

namespace ScriptLang

/-- Any text may be read as any file, and every location is a place. -/
def Attribution.anything : Attribution where
  reads _ _ _ := True
  places _ _ := True
  add _ _ := trivial
  begin _ := trivial
  program _ _ := ⟨trivial, fun s _ => s.located_of_forall fun _ => trivial⟩

namespace Attribution

theorem anything_evaluates (n : Nat) : anything.Evaluates (.ofBound n) := by
  have h : anything.Evaluates (Evaluator.watching (fun _ _ _ => False) .internal n) :=
    evaluates_watching (fun _ _ => trivial) n
  rwa [Evaluator.watching_nothing] at h

theorem anything_interprets (p : Program) (m : Machine) : p.Located (anything.places m.loaded) :=
  ⟨trivial, fun s _ => s.located_of_forall fun _ => trivial⟩

/-- Every machine will do, and so will every value. -/
theorem anything_holds (m : Machine) : anything.Holds m.loaded m :=
  (Regime.among_any m).mono fun fn _ => fn.located_of_forall fun _ => trivial

theorem anything_holds_value (S : Loaded) (v : Value) : anything.Holds S v :=
  (Regime.among_anyValue v).mono fun fn _ => fn.located_of_forall fun _ => trivial

/-- The errors of an evaluator. -/
theorem anything_explains (n : Nat) {q : Question} {m m' : Machine} {d : Diagnostic}
    (h : (Evaluator.ofBound n).answer q m = .error d m') :
    anything.Explains m.context m'.loaded d := by
  have hev := anything_evaluates n
  have hm := anything_holds m
  -- The three kinds of questions differ in what their results are like.
  have hends : ∃ post, anything.Ends m.context m.loaded post
      ((Evaluator.ofBound n).answer q m) := by
    cases q with
    | expr e => exact ⟨_, hev.expr (e.located_of_forall fun _ => trivial) m rfl rfl hm⟩
    | stmt s => exact ⟨_, hev.stmt (s.located_of_forall fun _ => trivial) m rfl rfl hm⟩
    | call f args loc name =>
      have hf := anything_holds_value m.loaded f
      have hargs : anything.Holds m.loaded args := fun v _ => anything_holds_value m.loaded v
      exact ⟨_, hev.call hf hargs trivial m rfl rfl hm⟩
  obtain ⟨post, hends⟩ := hends
  rw [h] at hends
  exact hends.explains

end Attribution

namespace Machine

variable {m m' : Machine} {d : Diagnostic} {s : CallStack}

theorem traces_complete (h : m.context.calls.Traces d) : m.context.calls.Traces (m.complete d) := by
  obtain ⟨snippet, he⟩ := m.complete_eq d
  rw [he]
  cases h.attach with
  | written hd hs => exact .written hd hs
  | raised hd hs ho => exact .raised hd hs ho
  | recorded hd hs => exact .recorded hd ⟨hs.stack, hs.nonempty, hs.ends⟩

/-- An error that shows its calls goes on to show them. -/
theorem shows_complete (h : s.Shows d) : s.Shows (m.complete d) := by
  obtain ⟨snippet, he⟩ := m.complete_eq d
  rw [he, CallStack.attach_of_not fun _ => h.nonempty]
  exact ⟨h.stack, h.nonempty, h.ends⟩

end Machine

/-- **Errors show the calls that they were raised in.**

* From an expression, a statement or a call at any depth, started while the calls of some call stack
  were active, an error of the running program comes out in one of two states. It shows no calls,
  and was raised while just those were active; or it shows the calls that were active when it was
  raised, which end with those.
* The error of a whole program is in one of these states, too. If there was room for the outermost
  call, it shows its calls, and that call is among them, before those that the machine was in.
* A program starts with no active calls, and there is room for one unless the limit is zero. Then
  the outermost call is the last one that the error shows.
* Errors about the text of a program, of its own or of one that it imports, show no calls. -/
theorem errors_show_their_calls :
    (∀ n q m d m', (Evaluator.ofBound n).answer q m = .error d m' → m.context.calls.Traces d) ∧
    (∀ p file m d m', Machine.interpret p file m = .error d m' →
      m.context.calls.Traces d ∧
      (m.context.calls.hasRoom = true → d.category = .runtime →
        d.stack = d.origin.val ∧
        ∃ inner, d.stack = inner ++ ⟨Machine.rootName, p.location⟩ :: m.context.calls.frames)) ∧
    (∀ setup : Machine.Setup, setup.maxDepth ≠ some 0 → ∀ p file d m',
      Machine.interpret p file (Machine.initial setup) = .error d m' → d.category = .runtime →
        d.stack = d.origin.val ∧ ∃ inner, d.stack = inner ++ [⟨Machine.rootName, p.location⟩]) ∧
    (∀ source file d, Program.ofSource source file = .error d →
      d.category ≠ .runtime ∧ d.stack = []) := by
  have hprogram (p : Program) (file : String) (m : Machine) (d : Diagnostic) (m' : Machine)
      (h : Machine.interpret p file m = .error d m') : m.context.calls.Traces d ∧
      (m.context.calls.hasRoom = true → d.category = .runtime →
        d.stack = d.origin.val ∧
        ∃ inner, d.stack = inner ++ ⟨Machine.rootName, p.location⟩ :: m.context.calls.frames) := by
    rw [Machine.interpret_eq] at h
    obtain ⟨d₀, hd⟩ := Attribution.escapes_interpretOver (Attribution.anything_evaluates _)
      (Attribution.anything_interprets p m) (Attribution.anything_holds m) h
    -- The outermost call has been left, so the error is completed with the calls from before.
    have hcalls : m'.context.calls = m.context.calls := congrArg Context.calls hd.context
    rw [hd.completed]
    refine ⟨hcalls ▸ Machine.traces_complete (hcalls.symm ▸ hd.explains.trace), fun hroom hr => ?_⟩
    -- It had shown its calls by then, and the outermost one is among them.
    obtain ⟨calls, hpush⟩ := CallStack.exists_push hroom ⟨Machine.rootName, p.location⟩
    have hshows : calls.Shows (m'.complete d₀) :=
      Machine.shows_complete (hd.shows hpush (by simpa using hr))
    obtain ⟨inner, hinner⟩ := hshows.ends
    rw [CallStack.frames_push hpush] at hinner
    exact ⟨hshows.stack, inner, hinner.symm⟩
  refine ⟨fun n q m d m' h => ?_, hprogram, fun setup hdepth p file d m' h hr => ?_, ?_⟩
  · exact (Attribution.anything_explains n h).trace
  · obtain ⟨hc, -⟩ := Machine.initial_settled setup
    have hframes : (Machine.initial setup).context.calls.frames = [] := by rw [hc]; rfl
    have hroom : (Machine.initial setup).context.calls.hasRoom = true := by
      rw [hc]
      cases hmax : setup.maxDepth with
      | none => rfl
      | some n =>
        have hn : 0 < n := Nat.pos_of_ne_zero fun h0 => hdepth (by rw [hmax, h0])
        exact decide_eq_true hn
    obtain ⟨-, hshows⟩ := hprogram p file _ d m' h
    rw [hframes] at hshows
    exact hshows hroom hr
  · exact fun source file d h => Program.written_of_ofSource h

/-- The error that a computation ended with. -/
def Outcome.error? {α : Type} : Outcome α → Option Diagnostic
  | .error d _ => some d
  | .ok _ _ | .halt _ _ => none

theorem Outcome.exists_of_error? {α : Type} {d : Diagnostic} {o : Outcome α}
    (h : o.error? = some d) : ∃ m, o = .error d m := by
  cases o with
  | ok a m => cases h
  | halt r m => cases h
  | error d' m =>
    obtain rfl := Option.some.inj h
    exact ⟨m, rfl⟩

/-- A call of a function that breaks out of no loop. -/
def strayCall : Program :=
  let place (line : Nat) : Location := ⟨"main.mimo", line, 1, .nowhere⟩
  let fn : FunctionDef := .mk (some "f") [] none [.breakTo (place 2) none] (place 1)
  ⟨[.expr (place 3) (.call (place 3) (.function (place 1) fn) [] false)], place 1⟩

theorem errors_show_their_calls_nested :
    ∃ d m', Machine.interpret strayCall "main.mimo" {} = .error d m' ∧ d.category = .runtime ∧
      d.stack.map (·.function) = ["f", "<root>"] ∧ d.stack = d.origin.val ∧
      ∃ inner, d.stack = inner ++ [⟨Machine.rootName, strayCall.location⟩] := by
  have hrun : (Machine.interpret strayCall "main.mimo" {}).error?.map
      (fun d => (d.category, d.stack.map (·.function))) = some (.runtime, ["f", "<root>"]) := by
    decide +kernel
  obtain ⟨d, hd, hshown⟩ := Option.map_eq_some_iff.mp hrun
  obtain ⟨hcategory, hnames⟩ := Prod.mk.inj hshown
  obtain ⟨m', h⟩ := Outcome.exists_of_error? hd
  obtain ⟨-, hshows⟩ := errors_show_their_calls.2.1 strayCall "main.mimo" {} d m' h
  exact ⟨d, m', h, hcategory, hnames, hshows rfl hcategory⟩

end ScriptLang
