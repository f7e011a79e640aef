import ScriptLang.Json.Basic
import ScriptLang.Number.Decimal

/-!
# Writing JSON

* `JsonWriter.number` writes whole numbers up to `JsonWriter.largestWhole` without point or
  exponent, other numbers in the layout of JSON, and numbers that are not finite as null.
* `JsonWriter.quote` escapes quotes, backslashes and control characters and nothing else.
* `JsonWriter.compact` writes a document without blanks; `JsonWriter.pretty` puts every element and
  member on a line of its own.
-/

namespace ScriptLang.JsonWriter

/-- The largest integer such that every smaller one is a number too. -/
def largestWhole : Nat := 9007199254740991

/-- The text of a number. -/
def number (x : Float) : String :=
  match Binary.toInt? x with
  | some i => if i.natAbs ≤ largestWhole then toString i else Layout.json.write x
  | none => if Binary.isFinite x then Layout.json.write x else "null"

/-- A hexadecimal digit. -/
def hexDigit (n : Nat) : Char :=
  if n < 10 then Char.ofNat ('0'.toNat + n) else Char.ofNat ('a'.toNat + n - 10)

/-- A character between quotes. -/
def escape (c : Char) : List Char :=
  if c = '"' then ['\\', '"']
  else if c = '\\' then ['\\', '\\']
  else if c = '\x08' then ['\\', 'b']
  else if c = '\x0c' then ['\\', 'f']
  else if c = '\n' then ['\\', 'n']
  else if c = '\r' then ['\\', 'r']
  else if c = '\t' then ['\\', 't']
  else if c.toNat < 32 then
    ['\\', 'u', '0', '0', hexDigit (c.toNat / 16), hexDigit (c.toNat % 16)]
  else [c]

/-- A text between quotes. -/
def quote (s : String) : String :=
  "\"" ++ String.ofList (s.toList.flatMap escape) ++ "\""

/-- A scalar; containers have no such text. -/
def scalar : JsonValue → String
  | .null => "null"
  | .bool b => if b then "true" else "false"
  | .number x => number x
  | .string s => quote s
  | .array _ | .object _ => ""

mutual

/-- A document without blanks. -/
def compact : JsonValue → String
  | .array items => "[" ++ compactItems items ++ "]"
  | .object members => "\x7b" ++ compactMembers members ++ "\x7d"
  | v => scalar v

/-- The elements of an array, with commas between them. -/
def compactItems : List JsonValue → String
  | [] => ""
  | [v] => compact v
  | v :: rest => compact v ++ "," ++ compactItems rest

/-- The members of an object, with commas between them. -/
def compactMembers : List (String × JsonValue) → String
  | [] => ""
  | [(k, v)] => quote k ++ ":" ++ compact v
  | (k, v) :: rest => quote k ++ ":" ++ compact v ++ "," ++ compactMembers rest

end

/-- The beginning of a line at a depth. -/
def lineStart (indent : String) (depth : Nat) : String :=
  "\n" ++ String.join (List.replicate depth indent)

mutual

/-- A document in lines; the document begins at a depth. -/
def pretty (indent : String) (depth : Nat) : JsonValue → String
  | .array [] => "[]"
  | .array items =>
    "[" ++ prettyItems indent (depth + 1) items ++ lineStart indent depth ++ "]"
  | .object [] => "\x7b\x7d"
  | .object members =>
    "\x7b" ++ prettyMembers indent (depth + 1) members ++ lineStart indent depth ++ "\x7d"
  | v => scalar v

/-- The elements of an array, each on a line of its own. -/
def prettyItems (indent : String) (depth : Nat) : List JsonValue → String
  | [] => ""
  | [v] => lineStart indent depth ++ pretty indent depth v
  | v :: rest =>
    lineStart indent depth ++ pretty indent depth v ++ "," ++ prettyItems indent depth rest

/-- The members of an object, each on a line of its own. -/
def prettyMembers (indent : String) (depth : Nat) : List (String × JsonValue) → String
  | [] => ""
  | [(k, v)] => lineStart indent depth ++ quote k ++ ": " ++ pretty indent depth v
  | (k, v) :: rest =>
    lineStart indent depth ++ quote k ++ ": " ++ pretty indent depth v ++ ","
      ++ prettyMembers indent depth rest

end

/-- A document: without blanks if there is no indentation, else in lines. -/
def write (indent : String) (v : JsonValue) : String :=
  if indent.isEmpty then compact v else pretty indent 0 v

end ScriptLang.JsonWriter
