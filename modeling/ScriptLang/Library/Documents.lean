import ScriptLang.Json.Reader
import ScriptLang.Json.Writer
import ScriptLang.Library.Argument
import ScriptLang.Value.Print

/-!
# The module `json`

Values from and to JSON.

* `Heap.toJson?` is the document of a value. Functions have none: they are left out of objects and
  become null in arrays; instants become texts. A container inside itself is an error.
* `JsonFn.ofJson` makes the value of a document, with new containers.
-/

namespace ScriptLang

/-- The document of a value inside the containers `path`: `.ok none` for functions, and an error
for a container inside itself. The bound limits the depth. -/
def Heap.toJsonFrom (h : Heap) : Nat → List Container → Value → Except Unit (Option JsonValue)
  | 0, _, _ => .error ()
  | bound + 1, path, v =>
    match v with
    | .null => .ok (some .null)
    | .bool b => .ok (some (.bool b))
    | .number x => .ok (some (.number x))
    | .string s => .ok (some (.string s))
    | .datetime t => .ok (some (.string t.iso))
    | .closure .. | .builtin .. => .ok none
    | .array r =>
      if path.contains (.array r) then .error ()
      else do
        let items ← (h.array r).toList.mapM (toJsonFrom h bound (.array r :: path))
        return some (.array (items.map (·.getD .null)))
    | .object r =>
      if path.contains (.object r) then .error ()
      else do
        let members ← (h.object r).toList.mapM fun e => do
          return (e.1, ← toJsonFrom h bound (.object r :: path) e.2)
        return some (.object (members.filterMap fun e => e.2.map fun v => (e.1, v)))

/-- The document of a value: `.ok none` for functions, and an error for a container inside itself.
-/
def Heap.toJson? (h : Heap) (v : Value) : Except Unit (Option JsonValue) :=
  toJsonFrom h (h.size + 1) [] v

namespace DocumentReport

/-- What is to be read is no text. -/
def textType : Report :=
  .wrongType "json.parse() expects a JSON string as its argument."
    "Provide a string containing valid JSON."

/-- A text is no document. -/
def unreadable (e : JsonError) : Report :=
  ⟨"JSON001", s!"Failed to parse JSON string: {e.message}",
    "Ensure the string contains valid JSON syntax."⟩

/-- A value has no document. -/
def circular : Report :=
  ⟨"JSON001", "Failed to stringify value to JSON: circular structure",
    "Ensure the value can be serialized to JSON (e.g., no functions or circular references)."⟩

/-- An indentation is negative. -/
def negativeIndent : Report :=
  .badArgument "json.stringify() indent number must be non-negative."
    "Provide a non-negative number for indentation."

/-- An indentation is neither a number nor a text. -/
def indentType : Report :=
  .wrongType "json.stringify() second argument (indent) must be a number or a string."
    "Provide a number for spaces or a string for the indent characters."

end DocumentReport

namespace JsonFn

open Eval Argument

mutual

/-- The value of a document. -/
def ofJson : JsonValue → Eval Value
  | .null => pure .null
  | .bool b => pure (.bool b)
  | .number x => pure (.number x)
  | .string s => pure (.string s)
  | .array items => do newArray (← ofItems items #[])
  | .object members => do newObject (← ofMembers members .empty)

/-- The values of documents, after those done before. -/
def ofItems : List JsonValue → Array Value → Eval (Array Value)
  | [], done => pure done
  | j :: rest, done => do
    let v ← ofJson j
    ofItems rest (done.push v)

/-- The values of members, after those done before. -/
def ofMembers : List (String × JsonValue) → OrderedMap Value → Eval (OrderedMap Value)
  | [], done => pure done
  | (k, j) :: rest, done => do
    let v ← ofJson j
    ofMembers rest (done.insert k v)

end

/-- The longest indentation. -/
def maxIndent : Nat := 10

/-- The indentation that an argument asks for. -/
def indentOf (args : List Value) (loc : Location) : Eval String :=
  match nth args 2 with
  | .null => pure ""
  | .number x =>
    if x < 0 then refuse DocumentReport.negativeIndent loc
    else pure (String.ofList (List.replicate (min (Binary.cutToCount x) maxIndent) ' '))
  | .string s => pure (String.ofList (s.toList.take maxIndent))
  | _ => refuse DocumentReport.indentType loc

/-- The result of a function. -/
def run (f : JsonFn) (args : List Value) (loc : Location) : Eval Value :=
  match f with
  | .parse =>
    match nth args 1 with
    | .string s =>
      match JsonReader.read s with
      | .ok j => ofJson j
      | .error e => refuse (DocumentReport.unreadable e) loc
    | _ => refuse DocumentReport.textType loc
  | .stringify => do
    let indent ← indentOf args loc
    match ← lookHeap (·.toJson? (nth args 1)) with
    | .ok (some j) => return .string (JsonWriter.write indent j)
    | .ok none => return .null
    | .error _ => refuse DocumentReport.circular loc

end JsonFn

end ScriptLang
