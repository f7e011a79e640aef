import ScriptLang.Calendar.Instant
import ScriptLang.Library.Catalog
import ScriptLang.Number.Binary
import ScriptLang.Tree.Basic

/-!
# Values

The values that programs compute with. Scalars are held directly. Arrays and objects are held by
reference into a `Heap`, so that a value copied is a reference copied; a function value is the
function together with the scope that it was created in.

* `Value.typeName` is the name of a value's type.
* `Value.truthy` decides conditions: null, false, zero and the empty text are false.
* `Value.integer?` is a number as a 64-bit integer, if it is whole.
-/

namespace ScriptLang

/-- A place of an array or of an object in its table of the heap. -/
abbrev Ref := Nat

/-- A place of a scope. -/
abbrev ScopeId := Nat

/-- A value. -/
inductive Value where
  | null
  | bool (b : Bool)
  | number (x : Float)
  | string (s : String)
  | array (ref : Ref)
  | object (ref : Ref)
  /-- A function of the program. Two of them are the same if they have the same identity. -/
  | closure (identity : Nat) (fn : FunctionDef) (scope : ScopeId)
  /-- A function of the library. -/
  | builtin (identity : Nat) (fn : Builtin)
  | datetime (moment : Instant)
  deriving Inhabited

namespace Value

/-- The name of a value's type. -/
def typeName : Value → String
  | null => "null"
  | bool _ => "boolean"
  | number _ => "number"
  | string _ => "string"
  | array _ => "array"
  | object _ => "object"
  | closure .. | builtin .. => "function"
  | datetime _ => "datetime"

/-- Whether a value counts as true. -/
def truthy : Value → Bool
  | null => false
  | bool b => b
  | number x => x != 0
  | string s => !s.isEmpty
  | _ => true

/-- Whether a value is null. -/
def isNull : Value → Bool
  | null => true
  | _ => false

/-- Whether a value can be called. -/
def isCallable : Value → Bool
  | closure .. | builtin .. => true
  | _ => false

/-- The number of a value. -/
def number? : Value → Option Float
  | number x => some x
  | _ => none

/-- The text of a value. -/
def string? : Value → Option String
  | string s => some s
  | _ => none

/-- A whole number as an integer, cut to 64 bits. -/
def integer? : Value → Option Int
  | number x => (Binary.toInt? x).map Binary.clampInt64
  | _ => none

/-- A count as a value. -/
def ofNat (n : Nat) : Value := number (Binary.ofNat n)

/-- The value of a literal. -/
def ofLiteral : Literal → Value
  | .number x => number x
  | .string s => string s
  | .boolean b => bool b
  | .null => null

/-- A value, or null for none. -/
def ofOption : Option Value → Value
  | some v => v
  | none => null

end Value

/-- The largest array or text that one operation may make. -/
def maxCollectionLength : Nat := Nat.pow 2 24

end ScriptLang
