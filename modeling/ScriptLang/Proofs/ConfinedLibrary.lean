import ScriptLang.Eval.Import
import ScriptLang.Proofs.LibraryHabits

/-!
# The library is confined

Every function of the library that does not call back into the program is confined
(`Eval.Confined`): it works on its arguments, containers and the host, it neither binds names nor
imports, and where it fails the error shows the place of the call.

To be confined is a habit (`confinement`). What is left are the three functions that write into a
container, and what the functions with callbacks do besides calling back.

Main statements: `CoreFn.confined_run`, `DatetimeFn.confined_run`, `EnvFn.confined_run`,
`FilesFn.confined_run`, `HttpFn.confined_run`, `JsonFn.confined_run`, `MathFn.confined_run`,
`PathFn.confined_run`, `RegexFn.confined_run` and `StringFn.confined_run`. The modules `array`,
`assert` and `object` take callbacks; what they do besides is confined, too.
-/

namespace ScriptLang

open Eval

variable {loc : Location}

/-- **Confinement.** To be confined to a place is a habit. -/
def confinement (loc : Location) : Habit loc where
  holds x := Confined loc x
  basic hx _ := hx
  andThen := .andThen
  array := confined_newArray
  object := confined_newObject

/-- What has every habit is confined. -/
theorem Eval.Confined.of_follows {α : Type} {x : Eval α} (hx : (confinement loc).Follows x) :
    Confined loc x := hx.holds

/-! ### Arguments -/

namespace Argument

@[simp] theorem confined_array (function : String) (v : Value) (position : Nat) (loc : Location) :
    Confined loc (array function v position loc) := .of_follows (follows_array ..)

@[simp] theorem confined_callback (function : String) (v : Value) (position : Nat)
    (loc : Location) : Confined loc (callback function v position loc) :=
  .of_follows (follows_callback ..)

end Argument

/-! ### Functions of every program -/

namespace CoreFn

@[simp] theorem confined_updateOn (target key v : Value) (loc : Location) :
    Confined loc (updateOn target key v loc) := by
  unfold updateOn
  repeat' split
  all_goals simp

@[simp] theorem confined_popFrom (target : Value) (loc : Location) :
    Confined loc (popFrom target loc) := by
  unfold popFrom
  split
  · refine .andThen (.of_lookHeap _) fun v => ?_
    split <;> simp
  · simp

theorem confined_run (f : CoreFn) (args : List Value) (loc : Location) :
    Confined loc (f.run args loc) := by
  cases hw : f.writes with
  | false => exact .of_follows (f.follows_run hw args)
  | true =>
    cases f with
    | push =>
      dsimp only [run]
      split <;> simp
    | pop | update => simp [run]
    | _ => cases hw

end CoreFn

/-! ### Modules with callbacks -/

theorem ArrayFn.confined_run (ev : Evaluator) {f : ArrayFn} (hf : f.callsBack = false)
    (args : List Value) (loc : Location) : Confined loc (f.run ev args loc) :=
  .of_follows (f.follows_run ev hf args)

namespace AssertFn

@[simp] theorem confined_failWith (args : List Value) (position : Nat) (loc : Location)
    {reason : Eval String} (hr : Confined loc reason) :
    Confined loc (failWith args position loc reason) :=
  .of_follows (follows_failWith args position ⟨hr⟩)

/-- All assertions but the one about an error. -/
theorem confined_run (ev : Evaluator) {f : AssertFn} (hf : f ≠ .throws) (args : List Value)
    (loc : Location) : Confined loc (f.run ev args loc) := .of_follows (f.follows_run ev hf args)

end AssertFn

namespace ObjectFn

@[simp] theorem confined_objectArg (function : String) (v : Value) (position : Nat)
    (loc : Location) : Confined loc (objectArg function v position loc) :=
  .of_follows (follows_objectArg ..)

/-- All functions of objects but the one that calls a function of the program for every entry. -/
theorem confined_run (ev : Evaluator) {f : ObjectFn} (hf : f ≠ .mapValues) (args : List Value)
    (loc : Location) : Confined loc (f.run ev args loc) := .of_follows (f.follows_run ev hf args)

end ObjectFn

/-! ### Modules without callbacks -/

section Modules

variable (args : List Value) (loc : Location)

theorem DatetimeFn.confined_run (f : DatetimeFn) : Confined loc (f.run args loc) :=
  .of_follows (f.follows_run args)

theorem EnvFn.confined_run (f : EnvFn) : Confined loc (f.run args loc) :=
  .of_follows (f.follows_run args)

theorem FilesFn.confined_run (f : FilesFn) : Confined loc (f.run args loc) :=
  .of_follows (f.follows_run args)

theorem HttpFn.confined_run (f : HttpFn) : Confined loc (f.run args loc) :=
  .of_follows (f.follows_run args)

theorem JsonFn.confined_run (f : JsonFn) : Confined loc (f.run args loc) :=
  .of_follows (f.follows_run args)

theorem MathFn.confined_run (f : MathFn) : Confined loc (f.run args loc) :=
  .of_follows (f.follows_run args)

theorem PathFn.confined_run (f : PathFn) : Confined loc (f.run args loc) :=
  .of_follows (f.follows_run args)

theorem RegexFn.confined_run (f : RegexFn) : Confined loc (f.run args loc) :=
  .of_follows (f.follows_run args)

theorem StringFn.confined_run (f : StringFn) : Confined loc (f.run args loc) :=
  .of_follows (f.follows_run args)

end Modules

/-! ### Modules as objects -/

namespace Eval

@[simp] theorem confined_builtinMembers (fs : List Builtin) : Confined loc (builtinMembers fs) := by
  induction fs with
  | nil => simp [builtinMembers]
  | cons f fs ih => simp [builtinMembers, ih]

theorem confined_buildStandard (s : StandardModule) : Confined loc (buildStandard s) :=
  .andThen (confined_builtinMembers _) fun _ => confined_newObject _

theorem local_buildStandard (s : StandardModule) : Local (buildStandard s) :=
  (confined_buildStandard s : Confined default (buildStandard s)).toLocal

end Eval

end ScriptLang
