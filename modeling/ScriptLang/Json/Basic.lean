/-!
# JSON documents

A `JsonValue` is a JSON document. The members of an object keep their order.
-/

namespace ScriptLang

/-- A JSON document. -/
inductive JsonValue where
  | null
  | bool (b : Bool)
  | number (x : Float)
  | string (s : String)
  | array (items : List JsonValue)
  | object (members : List (String × JsonValue))
  deriving Inhabited

end ScriptLang
