import ScriptLang.Eval.Fault

/-!
# The call stack

The calls that are active, and the limit on their number.

* `CallStack.push` refuses a call beyond the limit with the fault `callDepth`, at the place of the
  call.
* `CallStack.attach` records the active calls on an error of a running program that carries none
  yet, so the calls that an error shows are those of the place where it was raised.
-/

namespace ScriptLang

/-- The active calls, and how many there may be. -/
structure CallStack where
  /-- The calls, the latest first. -/
  frames : List CallFrame := []
  /-- Their number. -/
  depth : Nat := 0
  depth_eq : depth = frames.length := by rfl
  /-- The largest number of active calls, if it is limited. -/
  limit : Option Nat := none

instance : Inhabited CallStack := ⟨{}⟩

namespace CallStack

/-- No calls, under a limit. -/
def ofLimit (limit : Option Nat) : CallStack := { limit := limit }

/-- Whether no call is active. -/
def isEmpty (s : CallStack) : Bool := s.frames.isEmpty

/-- Whether one more call is within the limit. -/
def hasRoom (s : CallStack) : Bool :=
  match s.limit with
  | some n => s.depth < n
  | none => true

/-- Enters a call. -/
def push (s : CallStack) (f : CallFrame) : Except Diagnostic CallStack :=
  if s.hasRoom then
    .ok { s with
      frames := f :: s.frames
      depth := s.depth + 1
      depth_eq := by simp [s.depth_eq] }
  else .error ((RuntimeFault.callDepth (s.limit.getD 0)).toDiagnostic f.location)

/-- Leaves the latest call. -/
def pop (s : CallStack) : CallStack :=
  { s with
    frames := s.frames.tail
    depth := s.depth - 1
    depth_eq := by simp [s.depth_eq] }

/-- The active calls, the latest first. -/
def capture (s : CallStack) : List CallFrame := s.frames

/-- Records the active calls on an error of a running program that carries none. -/
def attach (s : CallStack) (d : Diagnostic) : Diagnostic :=
  if d.stack.isEmpty && d.isRuntime && !s.isEmpty then d.withStack s.capture else d

theorem pop_push {s t : CallStack} {f : CallFrame} (h : s.push f = .ok t) : t.pop = s := by
  unfold push at h
  split at h
  · cases h
    simp [pop]
  · cases h

theorem frames_push {s t : CallStack} {f : CallFrame} (h : s.push f = .ok t) :
    t.frames = f :: s.frames := by
  unfold push at h
  split at h
  · cases h
    rfl
  · cases h

end CallStack

end ScriptLang
