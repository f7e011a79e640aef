import ScriptLang.Library.Core
import ScriptLang.Library.Sorting

/-!
# The module `array`

Functions on arrays. None of them changes its argument; results are new arrays.

* The functions with a callback hand it an element, its index and the array, as far as it declares
  parameters. The array is read anew for every element (`ArrayFn.visitFrom`).
* `ArrayFn.sorted` sorts numbers by size and anything else by its printed form, texts thus by code
  points; equal elements keep their order. Only not-a-number has no place among numbers, and what
  its neighbours come to is left to `Sorting.stable`.
* The functions on sets take not-a-number for equal to itself.
-/

namespace ScriptLang

namespace ArrayReport

/-- A fold of nothing without a first value. -/
def reduceEmpty : Report :=
  .badArgument "reduce() of empty array with no initial value."
    "Provide an initial value to reduce() when operating on an empty array."

/-- The start of a search is no number. -/
def fromIndexType : Report :=
  .badArgument "includes() fromIndex (arg 3) must be a number."
    "Provide a number for the fromIndex parameter."

end ArrayReport

namespace ArrayFn

open Eval Argument

/-- Visits the elements of an array from an index on, with what a callback makes of each. `visit`
takes what was gathered so far, the index, the element and the callback's result; it goes on with
`.inl` and stops with `.inr`. -/
def visitFrom {σ τ : Type} (ev : Evaluator) (r : Ref) (whole : Value) (f : Callback)
    (loc : Location) (visit : σ → Nat → Value → Value → σ ⊕ τ) : Nat → Nat → σ → Eval (σ ⊕ τ)
  | 0, _, _ => halt .exhausted
  | bound + 1, i, acc => do
    match ← element? r i with
    | none => return .inl acc
    | some item =>
      let result ← callCallback ev f [item, .ofNat i, whole] loc
      match visit acc i item result with
      | .inl acc => visitFrom ev r whole f loc visit bound (i + 1) acc
      | .inr found => return .inr found

/-- Visits all elements of the array argument with the callback argument. -/
def visitAll {σ τ : Type} (ev : Evaluator) (function : String) (args : List Value)
    (loc : Location) (start : σ) (visit : σ → Nat → Value → Value → σ ⊕ τ) : Eval (σ ⊕ τ) := do
  let whole := nth args 1
  let r ← Argument.array function whole 1 loc
  let f ← callback function (nth args 2) 2 loc
  visitFrom ev r whole f loc visit ev.bound 0 start

/-- What visiting gathered, if nothing stopped it. -/
def gathered {σ : Type} : σ ⊕ Empty → σ
  | .inl acc => acc

/-- Folds an array from an index on. -/
def foldFrom (ev : Evaluator) (r : Ref) (whole : Value) (f : Callback) (loc : Location) :
    Nat → Nat → Value → Eval Value
  | 0, _, _ => halt .exhausted
  | bound + 1, i, acc => do
    match ← element? r i with
    | none => return acc
    | some item =>
      let acc ← callCallback ev f [acc, item, .ofNat i, whole] loc
      foldFrom ev r whole f loc bound (i + 1) acc

/-- An index, or -1 for none. -/
def indexOrMinusOne : Option Nat → Value
  | some i => .ofNat i
  | none => .number (-1)

/-- The first index from a start on at which a test holds. -/
def indexFrom (items : Array Value) (start : Nat) (test : Value → Bool) : Option Nat :=
  ((items.toList.drop start).findIdx? test).map (· + start)

/-- The last index below a bound at which a test holds. -/
def lastIndexBelow (items : Array Value) (test : Value → Bool) : Nat → Option Nat
  | 0 => none
  | n + 1 => if test (items.getD n .null) then some n else lastIndexBelow items test n

/-- The number of elements that a search for the last index looks at. -/
def searchLength (start : Option Float) (length : Nat) : Nat :=
  match start with
  | none => length
  | some x =>
    if x.isNaN then length
    else
      let i := Binary.cutToInt64 x
      if i < 0 then (length + i + 1).toNat else min (i.toNat + 1) length

/-- The order of numbers; other values are not ordered. -/
def lessNumber : Value → Value → Bool
  | .number a, .number b => a < b
  | _, _ => false

/-- Whether a value is not-a-number. -/
def isNaN (v : Value) : Bool := v.number?.any Float.isNaN

/-- The elements of an array in order; none if its numbers were found to have no order. -/
def sorted (h : Heap) (xs : List Value) : Option (List Value) :=
  if xs.all (·.number?.isSome) then
    if xs.any isNaN then Sorting.stable lessNumber xs
    else some (xs.mergeSort fun a b => !lessNumber b a)
  else
    let keyed := xs.map fun v => (h.print v, v)
    some ((keyed.mergeSort fun a b => !(decide (b.1 < a.1))).map (·.2))

/-- Whether a list has a value, not-a-number counting as equal to itself. -/
def has (xs : List Value) (v : Value) : Bool := xs.any (·.sameOrNaN v)

/-- The first occurrences of the values of a list. -/
def firstOccurrences (xs : List Value) : List Value :=
  (xs.foldl (fun done v => if done.any (·.sameOrNaN v) then done else done.push v)
    (#[] : Array Value)).toList

/-- The elements of the array argument at a position. -/
def items (function : String) (args : List Value) (position : Nat) (loc : Location) :
    Eval (Array Value) := do
  Eval.array (← Argument.array function (nth args position) position loc)

/-- The elements of all arguments, which must be arrays. -/
def concatFrom (loc : Location) : Nat → List Value → Array Value → Eval (Array Value)
  | _, [], done => pure done
  | position, v :: rest, done => do
    let more ← Eval.array (← Argument.array "concat" v position loc)
    concatFrom loc (position + 1) rest (done ++ more)

/-- What a set function makes of its two arrays. -/
def ofTwo (function : String) (args : List Value) (loc : Location)
    (f : List Value → List Value → List Value) : Eval Value := do
  let ra ← Argument.array function (nth args 1) 1 loc
  let rb ← Argument.array function (nth args 2) 2 loc
  let a ← Eval.array ra
  let b ← Eval.array rb
  newList (f a.toList b.toList)

/-- The result of a function. -/
def run (ev : Evaluator) (f : ArrayFn) (args : List Value) (loc : Location) : Eval Value :=
  let needle := nth args 2
  match f with
  | .map => do
    let out ← visitAll ev "map" args loc (#[] : Array Value) fun acc _ _ v => .inl (acc.push v)
    newArray (gathered out)
  | .filter => do
    let out ← visitAll ev "filter" args loc (#[] : Array Value) fun acc _ item v =>
      .inl (if v.truthy then acc.push item else acc)
    newArray (gathered out)
  | .forEach => do
    let _ ← visitAll (τ := Empty) ev "for_each" args loc () fun _ _ _ _ => .inl ()
    return .null
  | .find => do
    match ← visitAll ev "find" args loc () fun _ _ item v =>
        if v.truthy then .inr item else .inl () with
    | .inr item => return item
    | .inl _ => return .null
  | .findIndex => do
    match ← visitAll ev "find_index" args loc () fun _ i _ v =>
        if v.truthy then .inr i else .inl () with
    | .inr i => return .ofNat i
    | .inl _ => return .number (-1)
  | .reduce => do
    let whole := nth args 1
    let r ← Argument.array "reduce" whole 1 loc
    let f ← callback "reduce" needle 2 loc
    match given? args 3 with
    | some start => foldFrom ev r whole f loc ev.bound 0 start
    | none =>
      match ← element? r 0 with
      | some start => foldFrom ev r whole f loc ev.bound 1 start
      | none => refuse ArrayReport.reduceEmpty loc
  | .includes => do
    let xs ← items "includes" args 1 loc
    let start ← match given? args 3 with
      | none => pure 0
      | some (.number x) => pure (relativeIndex x xs.size)
      | some _ => refuse ArrayReport.fromIndexType loc
    return .bool (has (xs.toList.drop start) needle)
  | .indexOf => do
    let xs ← items "index_of" args 1 loc
    let start ← optionalNumber "index_of" args 3 loc
    let start := match start with
      | none => 0
      | some x => relativeIndex x xs.size
    return indexOrMinusOne (indexFrom xs start (·.same needle))
  | .lastIndexOf => do
    let xs ← items "last_index_of" args 1 loc
    if xs.isEmpty then return .number (-1)
    else
      let start ← optionalNumber "last_index_of" args 3 loc
      return indexOrMinusOne (lastIndexBelow xs (·.same needle) (searchLength start xs.size))
  | .slice => do CoreFn.sliceOf (← Argument.array "slice" (nth args 1) 1 loc) args loc
  | .first => do return (← items "first" args 1 loc).getD 0 .null
  | .last => do return .ofOption (← items "last" args 1 loc).back?
  | .isEmpty => do return .bool (← items "is_empty" args 1 loc).isEmpty
  | .sort => do
    let xs ← items "sort" args 1 loc
    match ← lookHeap fun h => sorted h xs.toList with
    | some xs => newList xs
    | none => halt .unordered
  | .reverse => do newArray (← items "reverse" args 1 loc).reverse
  | .concat => do newArray (← concatFrom loc 1 args #[])
  | .unique => do newList (firstOccurrences (← items "unique" args 1 loc).toList)
  | .intersection => ofTwo "intersection" args loc fun a b => a.filter (has b)
  | .unionOf => ofTwo "union" args loc fun a b => firstOccurrences (a ++ b)
  | .difference => ofTwo "difference" args loc fun a b => a.filter fun v => !has b v

end ArrayFn

end ScriptLang
