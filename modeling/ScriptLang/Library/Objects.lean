import ScriptLang.Library.Argument

/-!
# The module `object`

Functions on objects. None of them changes its argument; results are new objects.

* Keys that occur again keep their first place and take the last value.
* `ObjectFn.mapValues` hands its callback a value, its key and the object, as far as it declares
  parameters.
-/

namespace ScriptLang

namespace ObjectReport

/-- An argument is no object. -/
def needsObject (function : String) (position : Nat) (got : Value) : Report :=
  .wrongType s!"{function}() expects an object as argument {position}. Got '{got.typeName}'."
    s!"Provide a plain object for argument {position} of {function}()."

/-- An argument is no array. -/
def needsArray (function : String) (position : Nat) (got : Value) : Report :=
  .wrongType s!"{function}() expects an array as argument {position}. Got '{got.typeName}'."
    s!"Provide an array for argument {position} of {function}()."

/-- A key of a list of keys is no text. -/
def keyType (function : String) (index : Nat) (got : Value) : Report :=
  .wrongType
    s!"{function}() expects key list to contain strings. Got '{got.typeName}' at index {index}."

/-- An entry is no array of a key and a value. -/
def badEntry (index : Nat) : Report :=
  .wrongType <|
    "from_entries() expects each item to be an array [key, value]. "
      ++ s!"Invalid entry at index {index}."

end ObjectReport

namespace ObjectFn

open Eval Argument

/-- The object argument of a function. -/
def objectArg (function : String) (v : Value) (position : Nat) (loc : Location) : Eval Ref :=
  match v with
  | .object r => pure r
  | v => refuse (ObjectReport.needsObject function position v) loc

/-- The array argument of a function. -/
def arrayArg (function : String) (v : Value) (position : Nat) (loc : Location) : Eval Ref :=
  match v with
  | .array r => pure r
  | v => refuse (ObjectReport.needsArray function position v) loc

/-- The texts of a list of keys, from an index on. -/
def keyTexts (function : String) (loc : Location) : Nat → List Value → Eval (List String)
  | _, [] => pure []
  | i, .string s :: rest => do return s :: (← keyTexts function loc (i + 1) rest)
  | i, v :: _ => refuse (ObjectReport.keyType function i v) loc

/-- The entries of an object argument and the keys of a list of them. -/
def withKeys (function : String) (args : List Value) (loc : Location) :
    Eval (OrderedMap Value × List String) := do
  let source ← objectArg function (nth args 1) 1 loc
  let list ← arrayArg function (nth args 2) 2 loc
  let keys ← keyTexts function loc 0 (← Eval.array list).toList
  return (← Eval.object source, keys)

/-- The entries of all arguments, which must be objects. -/
def mergeFrom (loc : Location) :
    Nat → List Value → OrderedMap Value → Eval (OrderedMap Value)
  | _, [], done => pure done
  | position, v :: rest, done => do
    let entries ← Eval.object (← objectArg "merge" v position loc)
    mergeFrom loc (position + 1) rest (done.insertAll entries.toList)

/-- What a callback makes of entries. -/
def mapEntries (ev : Evaluator) (whole : Value) (f : Callback) (loc : Location) :
    List (String × Value) → OrderedMap Value → Eval (OrderedMap Value)
  | [], done => pure done
  | (key, v) :: rest, done => do
    let result ← callCallback ev f [v, .string key, whole] loc
    mapEntries ev whole f loc rest (done.insert key result)

/-- The elements of an array that may stand for an entry. -/
def entryParts : Value → Eval (List Value)
  | .array r => (·.toList) <$> Eval.array r
  | _ => pure []

/-- The entries that arrays of a key and a value stand for, from an index on. -/
def entriesFrom (loc : Location) :
    Nat → List Value → OrderedMap Value → Eval (OrderedMap Value)
  | _, [], done => pure done
  | i, v :: rest, done => do
    match ← entryParts v with
    | k :: item :: _ =>
      let key ← print k
      entriesFrom loc (i + 1) rest (done.insert key item)
    | _ => refuse (ObjectReport.badEntry i) loc

/-- The result of a function. -/
def run (ev : Evaluator) (f : ObjectFn) (args : List Value) (loc : Location) : Eval Value :=
  match f with
  | .merge => do newObject (← mergeFrom loc 1 args .empty)
  | .pick => do
    let (source, keys) ← withKeys "pick" args loc
    newObject (.ofList (keys.filterMap fun k => (source.get? k).map fun v => (k, v)))
  | .omit => do
    let (source, keys) ← withKeys "omit" args loc
    newObject (.ofList (source.toList.filter fun e => !keys.contains e.1))
  | .mapValues => do
    let whole := nth args 1
    let source ← objectArg "map_values" whole 1 loc
    let f ← callback "map_values" (nth args 2) 2 loc
    let entries ← Eval.object source
    newObject (← mapEntries ev whole f loc entries.toList .empty)
  | .fromEntries => do
    let list ← arrayArg "from_entries" (nth args 1) 1 loc
    newObject (← entriesFrom loc 0 (← Eval.array list).toList .empty)
  | .isEmpty => do
    let entries ← Eval.object (← objectArg "is_empty" (nth args 1) 1 loc)
    return .bool entries.isEmpty

end ObjectFn

end ScriptLang
