import ScriptLang.Eval.Machine
import ScriptLang.Value.Equality

/-!
# Operators and members

What operators do with values, and how members of containers are read and written.

* `Value.combine` applies an operator with two operands. Both operands have been computed, also of
  the logical operators.
* `Eval.memberOf` and `Eval.elementOf` read members, `Eval.storeMember` and `Eval.storeElement`
  write them.
* Writing an object under a key whose printing comes across that object halts the program
  (`Eval.storeMember`).
-/

namespace ScriptLang

namespace Eval

/-- The operands of an arithmetic operator or comparison as numbers. -/
def withNumbers (op : BinaryOp) (l r : Value) (loc : Location) (f : Float → Float → Eval Value) :
    Eval Value :=
  match l, r with
  | .number a, .number b => f a b
  | _, _ => fail (.operandTypes op l.typeName r.typeName) loc

/-- Whether a value is a text. -/
def isText : Value → Bool
  | .string _ => true
  | _ => false

/-- The value of an operator applied to two values. -/
def combine (op : BinaryOp) (l r : Value) (loc : Location) : Eval Value :=
  match op with
  | .eq => pure (.bool (l.same r))
  | .notEq => pure (.bool !(l.same r))
  | .and => pure (.bool (l.truthy && r.truthy))
  | .or => pure (.bool (l.truthy || r.truthy))
  | .coalesce => pure (if l.isNull then r else l)
  | .add =>
    if isText l || isText r then do
      let a ← print l
      let b ← print r
      return .string (a ++ b)
    else withNumbers op l r loc fun a b => pure (.number (a + b))
  | .sub => withNumbers op l r loc fun a b => pure (.number (a - b))
  | .mul => withNumbers op l r loc fun a b => pure (.number (a * b))
  | .div =>
    withNumbers op l r loc fun a b =>
      if b == 0 then fail .divisionByZero loc else pure (.number (a / b))
  | .mod =>
    withNumbers op l r loc fun a b =>
      if b == 0 then fail .remainderByZero loc else pure (.number (Binary.remainder a b))
  | .gt => withNumbers op l r loc fun a b => pure (.bool (a > b))
  | .lt => withNumbers op l r loc fun a b => pure (.bool (a < b))
  | .gtEq => withNumbers op l r loc fun a b => pure (.bool (a ≥ b))
  | .ltEq => withNumbers op l r loc fun a b => pure (.bool (a ≤ b))

/-- The value of an operator applied to one value. -/
def applyUnary (op : UnaryOp) (v : Value) (loc : Location) : Eval Value :=
  match op, v with
  | .neg, .number x => pure (.number (-x))
  | .neg, v => fail (.negatedType v.typeName) loc
  | .not, v => pure (.bool !v.truthy)

/-- The member of a value by name; `safe` lets null pass. -/
def memberOf (target : Value) (name : String) (safe : Bool) (loc : Location) : Eval Value :=
  match target with
  | .null => if safe then pure .null else fail (.propertyOfNull name) loc
  | .object r => lookHeap fun h => .ofOption ((h.object r).get? name)
  | .array r =>
    if name = "length" then lookHeap fun h => .ofNat (h.array r).size else pure .null
  | .string s => pure (if name = "length" then .ofNat s.length else .null)
  | .number _ | .bool _ => fail (.propertyOfScalar name target.typeName) loc
  | .closure .. | .builtin .. | .datetime _ => pure .null

/-- The element at an index, or null. -/
def getAt (items : Array Value) (i : Int) : Value :=
  if i < 0 then .null else items.getD i.toNat .null

/-- The character at an index as a text, or null. -/
def charAt (s : String) (i : Int) : Value :=
  if i < 0 then .null
  else
    match s.toList[i.toNat]? with
    | some c => .string c.toString
    | none => .null

/-- The member of a value by key. -/
def elementOf (target key : Value) (loc : Location) : Eval Value :=
  match target with
  | .array r =>
    match key.integer? with
    | some i => lookHeap fun h => getAt (h.array r) i
    | none => fail (.arrayIndexType key.typeName) loc
  | .object r => lookHeap fun h => .ofOption ((h.object r).get? (h.keyOf key))
  | .string s =>
    match key.integer? with
    | some i => pure (charAt s i)
    | none => fail (.stringIndexType key.typeName) loc
  | v => fail (.notIndexable v.typeName) loc

/-- An array with an element replaced; a gap before it is filled with null. -/
def putAt (items : Array Value) (i : Nat) (v : Value) : Array Value :=
  if i < items.size then items.set! i v
  else (items ++ Array.replicate (i - items.size) Value.null).push v

/-- Writes an element of an array. -/
def storeElement (r : Ref) (i : Nat) (v : Value) (loc : Location) : Eval Unit := do
  let size ← lookHeap fun h => (h.array r).size
  if size ≤ i && maxCollectionLength ≤ i then fail (.indexTooLarge i) loc
  else modifyArray r fun items => putAt items i v

/-- Writes an entry of an object under the key that a value stands for. -/
def storeMember (r : Ref) (key v : Value) : Eval Unit := do
  if ← lookHeap (·.visits (.object r) key) then halt .internal
  else
    let name ← print key
    modifyObject r fun entries => entries.insert name v

end Eval

end ScriptLang
