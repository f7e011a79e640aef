import ScriptLang.Eval.Access
import ScriptLang.Library.Argument

/-!
# Functions of every program

What the functions that every program sees do. `CoreFn.run` is the result of a function applied to
arguments.
-/

namespace ScriptLang

namespace CoreReport

/-- The collection of a length is none. -/
def lengthOf (got : Value) : Report :=
  .wrongType s!"len() expects an array or string. Got '{got.typeName}'."
    "Provide an array or string to len()."

/-- The key of an array is no whole number. -/
def indexType (key : Value) : Report :=
  .wrongType s!"Array index must be an integer. Got '{key.typeName}'."

/-- The collection of a read is none. -/
def getFrom (got : Value) : Report :=
  ⟨"TYPE002", s!"Cannot 'get' from type '{got.typeName}'. Expected array or object.", ""⟩

/-- The collection of a write is none. -/
def updateOn (got : Value) : Report :=
  ⟨"TYPE002", s!"Cannot 'update' on type '{got.typeName}'. Expected array or object.", ""⟩

/-- A negative index of a write. -/
def negativeIndex (i : Int) : Report := ⟨"INDEX001", s!"Index {i} cannot be negative.", ""⟩

/-- The first argument of an array function is no array. -/
def needsArray (function : String) : Report :=
  .wrongType s!"{function}() requires an array as first argument"
    s!"Provide an array as the first argument to {function}()."

/-- The argument of `pop` is no array. -/
def popNeedsArray : Report :=
  .wrongType "pop() requires an array" "Provide an array to pop()."

/-- There is nothing to take out of an array. -/
def popEmpty : Report :=
  ⟨"INDEX001", "Cannot pop from empty array",
    "Check if the array has elements before calling pop()."⟩

/-- An argument of a range is no number. -/
def rangeNumbers : Report :=
  .wrongType "range() arguments must be numbers."
    "Ensure start, end, and step values are numbers."

/-- An argument of a range is not whole. -/
def rangeIntegers : Report :=
  .wrongType "range() arguments must be integers."
    "Ensure start, end, and step values are whole numbers."

/-- The step of a range is zero. -/
def rangeStep : Report :=
  .badArgument "range() step argument cannot be zero." "Provide a non-zero step value."

/-- A separator is no text. -/
def joinSeparator : Report :=
  .wrongType "join() requires a string separator as second argument"
    "Provide a string as the second argument to join()."

/-- The collection of a listing is null. -/
def listingOfNull (function : String) : Report :=
  .wrongType s!"{function}() requires a non-null object."
    s!"Provide an object or array to {function}()."

/-- The collection of a listing is none. -/
def listingOf (function : String) : Report :=
  .wrongType s!"{function}() requires an object argument."
    s!"Provide an object or array to {function}()."

/-- The name of a variable of the environment is no text. -/
def variableName : Report :=
  .wrongType "get_env() expects a string variable name as its argument."
    "Provide a string environment variable name."

/-- The code to leave with is no number. -/
def exitCodeType : Report :=
  .wrongType "exit_code() expects a numeric exit code as its argument."
    "Provide a number for the exit code."

/-- The host does not let the program leave. -/
def exitRefused (f : HostFailure) : Report :=
  ⟨"ADAPTER001", s!"exit_code() failed: {f.message}",
    "Use a host that can terminate the process."⟩

/-- The name of a member is no text. -/
def memberNameType (got : Value) : Report :=
  .wrongType
    s!"get_property_safe() expects a string property name as argument 2. Got '{got.typeName}'."
    "Provide a string literal for the property name (e.g., \"name\")."

/-- A scalar has no members. -/
def memberOfScalar (name : String) (got : Value) : Report :=
  ⟨"TYPE002",
    s!"Cannot safely access property '{name}' of non-object/non-string value of type "
      ++ s!"'{got.typeName}'.",
    "get_property_safe() is only applicable to objects, functions, or strings."⟩

end CoreReport

namespace CoreFn

open Eval Argument

/-- An end of a part of an array, from an argument that may be left out. -/
def sliceEnd (args : List Value) (position length fallback : Nat) (loc : Location) : Eval Nat :=
  match optional args position with
  | some v => do return relativeIndex (← number "slice" v position loc) length
  | none => pure fallback

/-- The part of an array between two optional positions. -/
def sliceOf (r : Ref) (args : List Value) (loc : Location) : Eval Value := do
  let items ← Eval.array r
  let first ← sliceEnd args 2 items.size 0 loc
  let last ← sliceEnd args 3 items.size items.size loc
  newArray (items.extract first last)

/-- Whole numbers from a start on, at equal steps. -/
def steps (start step : Float) (count : Nat) : Array Value :=
  (Array.range count).map fun k => .number (start + Binary.ofNat k * step)

/-- The numbers of a range. -/
def numbersOf (loc : Location) : List Value → Eval (List Float)
  | [] => pure []
  | .number x :: rest => do return x :: (← numbersOf loc rest)
  | _ :: _ => refuse CoreReport.rangeNumbers loc

/-- The array of a range. -/
def rangeOf (args : List Value) (loc : Location) : Eval Value := do
  let xs ← numbersOf loc args
  if xs.any fun x => (Binary.toInt? x).isNone then refuse CoreReport.rangeIntegers loc
  else
    let (start, stop, step) := match xs with
      | [stop] => ((0 : Float), stop, (1 : Float))
      | [start, stop] => (start, stop, 1)
      | start :: stop :: step :: _ => (start, stop, step)
      | [] => (0, 0, 1)
    if step == 0 then refuse CoreReport.rangeStep loc
    else
      let count := ((stop - start) / step).ceil
      let count := if count > 0 then count else 0
      if count > Binary.ofNat maxCollectionLength then
        fail (.resultTooLarge "range" (Layout.plain.write count)) loc
      else newArray (steps start step (Binary.cutToCount count))

/-- Whether a text is the decimal form of an index below a length. -/
def isIndexBelow (key : String) (length : Nat) : Bool :=
  match key.toNat? with
  | some i => toString i == key && i < length
  | none => false

/-- What `keys`, `values` and `entries` list of a collection. -/
def listing (function : String) (v : Value) (loc : Location)
    (ofArray : Array Value → Eval Value) (ofObject : OrderedMap Value → Eval Value) :
    Eval Value :=
  match v with
  | .array r => do ofArray (← Eval.array r)
  | .object r => do ofObject (← Eval.object r)
  | .null => refuse (CoreReport.listingOfNull function) loc
  | _ => refuse (CoreReport.listingOf function) loc

/-- Pairs as arrays of two. -/
def pairs : List (String × Value) → Eval (List Value)
  | [] => pure []
  | (k, v) :: rest => do
    let pair ← newList [.string k, v]
    return pair :: (← pairs rest)

/-- Leaves the program. -/
def leave (code : Int) (loc : Location) : Eval Value := fun m =>
  match m.host.leave code with
  | .refused f => refuse (CoreReport.exitRefused f) loc { m with host := m.host.asked }
  | .noted host => .ok .null { m with host := host }
  | .stopped => .halt (.left code) m

/-- Reads a member of an array or object. -/
def getFrom (target key : Value) (loc : Location) : Eval Value :=
  match target with
  | .array r =>
    match key.integer? with
    | some i => lookHeap fun h => getAt (h.array r) i
    | none => refuse (CoreReport.indexType key) loc
  | .object r => lookHeap fun h => .ofOption ((h.object r).get? (h.keyOf key))
  | v => refuse (CoreReport.getFrom v) loc

/-- Writes a member of an array or object. -/
def updateOn (target key v : Value) (loc : Location) : Eval Value :=
  match target with
  | .array r =>
    match key.integer? with
    | none => refuse (CoreReport.indexType key) loc
    | some i =>
      if i < 0 then refuse (CoreReport.negativeIndex i) loc
      else do
        storeElement r i.toNat v loc
        return v
  | .object r => do
    storeMember r key v
    return v
  | t => refuse (CoreReport.updateOn t) loc

/-- Reads a member of a value that may be null. -/
def memberSafely (target name : Value) (loc : Location) : Eval Value :=
  if target.isNull then pure .null
  else
    match name with
    | .string n =>
      match target with
      | .number _ | .bool _ => refuse (CoreReport.memberOfScalar n target) loc
      | t => memberOf t n true loc
    | v => refuse (CoreReport.memberNameType v) loc

/-- The printed forms of an array's elements with a separator between them. -/
def joined (items separator : Value) (loc : Location) : Eval Value :=
  match items, separator with
  | .array r, .string s =>
    lookHeap fun h => .string (String.intercalate s ((h.array r).toList.map h.print))
  | .array _, _ => refuse CoreReport.joinSeparator loc
  | _, _ => refuse (CoreReport.needsArray "join") loc

/-- Whether a collection has a member. -/
def hasMember (target key : Value) : Eval Value :=
  lookHeap fun h =>
    let key := h.keyOf key
    match target with
    | .object r => .bool ((h.object r).contains key)
    | .array r => .bool (isIndexBelow key (h.array r).size)
    | _ => .bool false

/-- Takes the last element out of an array. -/
def popFrom (target : Value) (loc : Location) : Eval Value :=
  match target with
  | .array r => do
    match ← lookHeap fun h => (h.array r).back? with
    | some v =>
      modifyArray r (·.pop)
      return v
    | none => refuse CoreReport.popEmpty loc
  | _ => refuse CoreReport.popNeedsArray loc

/-- The result of a function. -/
def run (f : CoreFn) (args : List Value) (loc : Location) : Eval Value :=
  let a := nth args 1
  let b := nth args 2
  let c := nth args 3
  match f with
  | .len =>
    match a with
    | .array r => lookHeap fun h => .ofNat (h.array r).size
    | .string s => pure (.ofNat s.length)
    | v => refuse (CoreReport.lengthOf v) loc
  | .get => getFrom a b loc
  | .update => updateOn a b c loc
  | .typeOf => pure (.string a.typeName)
  | .push =>
    match a with
    | .array r => do
      modifyArray r (·.push b)
      return a
    | _ => refuse (CoreReport.needsArray "push") loc
  | .pop => popFrom a loc
  | .slice =>
    match a with
    | .array r => sliceOf r args loc
    | _ => refuse (CoreReport.needsArray "slice") loc
  | .range => rangeOf args loc
  | .join => joined a b loc
  | .hasProperty => hasMember a b
  | .keys =>
    listing "keys" a loc (fun items => newArray ((Array.range items.size).map Value.ofNat))
      fun entries => newList (entries.keys.map .string)
  | .values =>
    listing "values" a loc newArray fun entries => newList entries.values
  | .entries =>
    listing "entries" a loc
      (fun items => do
        newList (← pairs (items.toList.zipIdx.map fun p => (toString p.2, p.1))))
      fun entries => do newList (← pairs entries.toList)
  | .getArguments => do newList ((← ask (·.arguments)).map .string)
  | .getEnv =>
    match a with
    | .string name => ask fun h => .ofOption ((h.environmentValue name).map .string)
    | _ => refuse CoreReport.variableName loc
  | .exitCode =>
    match a with
    | .number x => leave (Binary.cutTo (-(Nat.pow 2 31 : Int)) (Nat.pow 2 31 - 1) x.floor) loc
    | _ => refuse CoreReport.exitCodeType loc
  | .coalesce => pure (if a.isNull then b else a)
  | .getPropertySafe => memberSafely a b loc
  | .ifElse => pure (if a.truthy then b else c)

end CoreFn

end ScriptLang
