import ScriptLang.Library.Argument

/-!
# The module `math`

Elementary functions and random numbers.

* `RandomState` is about the state of the multiplicative generator of random numbers: a residue
  other than zero, which a seed becomes by `RandomState.ofSeed`.
* `MathFn.roundHalfUp` rounds to the nearest integer, a half upward.
* `MathFn.extremum` is not-a-number as soon as one argument is.
-/

namespace ScriptLang

namespace RandomState

/-- The modulus, a prime. -/
def modulus : Nat := 2147483647

/-- The multiplier. -/
def multiplier : Nat := 16807

/-- The state after a state. -/
def next (state : Nat) : Nat := state * multiplier % modulus

/-- The state of a seed: its whole part without sign, modulo the modulus, and one in place of
zero. -/
def ofSeed (x : Float) : Nat :=
  match Binary.wholeInt? x.floor with
  | none => 1
  | some i =>
    let state := i.natAbs % modulus
    if state = 0 then 1 else state

/-- The number of a state, at least zero and less than one. -/
def fraction (state : Nat) : Float :=
  Binary.ofNat (state - 1) / Binary.ofNat (modulus - 1)

end RandomState

namespace MathFn

open Eval Argument

/-- The nearest integer; a half goes upward. -/
def roundHalfUp (x : Float) : Float :=
  let low := x.floor
  if x - low ≥ 0.5 then low + 1 else low

/-- The function of a name with one number. -/
def elementary? : MathFn → Option (Float → Float)
  | .sin => some Float.sin
  | .cos => some Float.cos
  | .tan => some Float.tan
  | .asin => some Float.asin
  | .acos => some Float.acos
  | .atan => some Float.atan
  | .log => some Float.log
  | .log10 => some Float.log10
  | .log2 => some Float.log2
  | .exp => some Float.exp
  | .sqrt => some Float.sqrt
  | .cbrt => some Float.cbrt
  | .floor => some Float.floor
  | .ceil => some Float.ceil
  | .round => some roundHalfUp
  | .abs => some Float.abs
  | _ => none

/-- The best of the numbers so far and one more. -/
def better (prefers : Float → Float → Bool) (best : Option Float) (x : Float) : Float :=
  if x.isNaN then x
  else
    match best with
    | none => x
    | some b => if b.isNaN then b else if prefers x b then x else b

/-- The best of some numbers, from a position on. -/
def extremumFrom (function : String) (prefers : Float → Float → Bool) (loc : Location) :
    Nat → List Value → Option Float → Eval (Option Float)
  | _, [], best => pure best
  | position, v :: rest, best => do
    let x ← number function v position loc
    extremumFrom function prefers loc (position + 1) rest (some (better prefers best x))

/-- The best of some numbers. -/
def extremum (function : String) (prefers : Float → Float → Bool) (args : List Value)
    (loc : Location) : Eval Value := do
  return .number ((← extremumFrom function prefers loc 1 args none).getD (0 / 0))

/-- The next random number. -/
def draw : Eval Float := fun m =>
  let state := RandomState.next m.random
  .ok (RandomState.fraction state) { m with random := state }

/-- The two numbers of a function. -/
def pair (function : String) (args : List Value) (loc : Location) : Eval (Float × Float) := do
  let a ← number function (nth args 1) 1 loc
  let b ← number function (nth args 2) 2 loc
  return (a, b)

/-- The result of a function. -/
def run (f : MathFn) (args : List Value) (loc : Location) : Eval Value :=
  match f with
  | .atan2 => do
    let (y, x) ← pair "atan2" args loc
    return .number (Float.atan2 y x)
  | .pow => do
    let (base, exponent) ← pair "pow" args loc
    return .number (Float.pow base exponent)
  | .max => extremum "max" (fun x best => x > best) args loc
  | .min => extremum "min" (fun x best => x < best) args loc
  | .random => do return .number (← draw)
  | .seed => do
    let x ← number "seed" (nth args 1) 1 loc
    change fun m => { m with random := RandomState.ofSeed x }
    return .null
  | .randint => do
    let (low, high) ← pair "randint" args loc
    let low := low.ceil
    let high := high.floor
    let r ← draw
    return .number ((r * (high - low + 1)).floor + low)
  | f =>
    match elementary? f with
    | some op => do return .number (op (← number f.signature.1 (nth args 1) 1 loc))
    | none => pure .null

end MathFn

end ScriptLang
