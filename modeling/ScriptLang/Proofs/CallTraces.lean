import ScriptLang.Eval.CallStack
import ScriptLang.Proofs.Local

/-!
# Which calls an error shows

The active calls are recorded on an error by the first call that it leaves, and not before. On the
way there an error shows no calls, and from there on it shows those that were active when it was
raised.

* `CallStack.Shows` says of an error that it shows its calls, down to those of a call stack.
* `CallStack.Traces` says which of these states an error is in that leaves a computation; the call
  stack is the one that the computation was started with.
* `CallStack.Traces.shows_attach` is the step between the two, and `CallStack.Traces.pop` is what a
  call makes of an error of its body.
-/

namespace ScriptLang

namespace CallStack

/-- **Shows.** The error shows the calls that were active when it was raised. They end with those of
`s`. -/
structure Shows (s : CallStack) (d : Diagnostic) : Prop where
  stack : d.stack = d.origin.val
  nonempty : d.stack ≠ []
  ends : s.frames <:+ d.stack

/-- **Traces.** How an error shows the active calls when it leaves a computation that was started
while those of `s` were active. -/
inductive Traces (s : CallStack) (d : Diagnostic) : Prop
  /-- An error about the text of a program shows no calls. -/
  | written (hd : d.category ≠ .runtime) (hs : d.stack = [])
  /-- It was raised while just those calls were active, and does not show them yet. -/
  | raised (hd : d.category = .runtime) (hs : d.stack = []) (ho : d.origin.val = s.frames)
  /-- It shows its calls. -/
  | recorded (hd : d.category = .runtime) (h : s.Shows d)

variable {s t : CallStack} {d : Diagnostic} {frame : CallFrame}

@[simp] theorem category_attach (s : CallStack) (d : Diagnostic) :
    (s.attach d).category = d.category := by
  unfold attach
  split <;> rfl

@[simp] theorem code_attach (s : CallStack) (d : Diagnostic) : (s.attach d).code = d.code := by
  unfold attach
  split <;> rfl

@[simp] theorem location_attach (s : CallStack) (d : Diagnostic) :
    (s.attach d).location = d.location := by
  unfold attach
  split <;> rfl

@[simp] theorem snippet_attach (s : CallStack) (d : Diagnostic) :
    (s.attach d).snippet = d.snippet := by
  unfold attach
  split <;> rfl

@[simp] theorem origin_attach (s : CallStack) (d : Diagnostic) :
    (s.attach d).origin = d.origin := by
  unfold attach
  split <;> rfl

/-- Where one more call is within the limit, it can be entered. -/
theorem exists_push (h : s.hasRoom = true) (frame : CallFrame) : ∃ t, s.push frame = .ok t :=
  ⟨_, if_pos h⟩

/-- Attaching calls to an error that has just been raised records all of them. -/
theorem attach_of_raised (hd : d.category = .runtime) (hs : d.stack = []) (hne : s.frames ≠ []) :
    (s.attach d).stack = s.frames := by
  have hempty : s.isEmpty = false := by simpa [isEmpty] using hne
  simp [attach, hd, hs, hempty, Diagnostic.isRuntime, Diagnostic.withStack, capture]

/-- Nothing is attached to any other error. -/
theorem attach_of_not (h : d.category = .runtime → d.stack ≠ []) : s.attach d = d := by
  unfold attach
  split
  case isTrue hb =>
    obtain ⟨⟨hs, hd⟩, -⟩ : (d.stack = [] ∧ d.category = .runtime) ∧ ¬ s.isEmpty := by
      simpa [Diagnostic.isRuntime] using hb
    exact absurd hs (h hd)
  case isFalse => rfl

/-- Where no call is active, nothing is attached. -/
theorem attach_of_empty (h : s.frames = []) : s.attach d = d := by
  have hempty : s.isEmpty = true := by simpa [isEmpty] using h
  simp [attach, hempty]

/-- The calls that an error shows end with those of a call stack that has fewer of them, too. -/
theorem Shows.mono (h : t.Shows d) (hs : s.frames <:+ t.frames) : s.Shows d :=
  ⟨h.stack, h.nonempty, hs.trans h.ends⟩

namespace Traces

theorem of_fresh {loc : Location} (h : d.Fresh loc s.frames) : s.Traces d :=
  .raised h.runtime h.stack h.origin

theorem stack_of_written (h : s.Traces d) (hd : d.category ≠ .runtime) : d.stack = [] := by
  cases h with
  | written _ hs => exact hs
  | raised hd' _ _ | recorded hd' _ => exact absurd hd' hd

/-- With calls attached, an error of a running program shows its calls. -/
theorem shows_attach (h : s.Traces d) (hd : d.category = .runtime) (hne : s.frames ≠ []) :
    s.Shows (s.attach d) := by
  cases h with
  | written hd' _ => exact absurd hd hd'
  | raised _ hs ho =>
    have hstack := attach_of_raised hd hs hne
    refine ⟨?_, ?_, ?_⟩
    · rw [hstack, origin_attach, ho]
    · rwa [hstack]
    · exact hstack ▸ List.suffix_refl _
  | recorded _ h =>
    rw [attach_of_not fun _ => h.nonempty]
    exact h

/-- Attaching calls to an error keeps what it shows. -/
theorem attach (h : s.Traces d) : s.Traces (s.attach d) := by
  by_cases hd : d.category = .runtime
  · by_cases hne : s.frames = []
    · rwa [attach_of_empty hne]
    · exact .recorded (by simpa using hd) (h.shows_attach hd hne)
  · rwa [attach_of_not fun hd' => absurd hd' hd]

/-- After a call has attached the active calls, what it shows ends with those from before. -/
theorem pop (hp : s.push frame = .ok t) (h : t.Traces d) : s.Traces (t.attach d) := by
  have hframes := frames_push hp
  by_cases hd : d.category = .runtime
  · have hshows : t.Shows (t.attach d) := h.shows_attach hd (by simp [hframes])
    exact .recorded (by simpa using hd) (hshows.mono (hframes ▸ List.suffix_cons ..))
  · rw [attach_of_not fun hd' => absurd hd' hd]
    exact .written hd (h.stack_of_written hd)

end Traces

end CallStack

end ScriptLang
