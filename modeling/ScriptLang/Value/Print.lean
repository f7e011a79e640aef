import ScriptLang.Number.Decimal
import ScriptLang.Text.Quoted
import ScriptLang.Value.Heap

/-!
# Printed forms

How values are printed. Texts are printed as they are, containers with their contents.

* `Heap.print` prints a value. A container inside itself is not printed again but written `[...]` or
  `{...}`; a container that merely occurs twice is printed twice.
* `Heap.visits` tells whether printing a value comes across an object.
* `Heap.inspect` is the form that dumps show.
-/

namespace ScriptLang

namespace Value

/-- The text of a function value. -/
def functionText (name : String) : String := s!"<function {name}>"

/-- The text of a value that is not a container. -/
def scalarText : Value → String
  | null => "null"
  | bool b => if b then "true" else "false"
  | number x => Layout.display.write x
  | string s => s
  | array _ | object _ => ""
  | closure _ fn _ => functionText fn.displayName
  | builtin _ fn => functionText fn.name
  | datetime t => s!"datetime({t.iso})"

end Value

namespace Heap

/-- What is written for a container inside itself. -/
def cycleMark : Container → String
  | .array _ => "[...]"
  | .object _ => "\x7b...\x7d"

/-- The printed form inside the containers `path`. The bound limits the depth; a path without
repetition is never longer than the number of containers. -/
def printFrom (h : Heap) : Nat → List Container → Value → String
  | 0, _, v => v.scalarText
  | bound + 1, path, v =>
    match v with
    | .array r =>
      if path.contains (.array r) then cycleMark (.array r)
      else
        let items := (h.array r).toList.map (printFrom h bound (.array r :: path))
        "[" ++ String.intercalate ", " items ++ "]"
    | .object r =>
      if path.contains (.object r) then cycleMark (.object r)
      else
        let items := (h.object r).toList.map fun e =>
          e.1 ++ ": " ++ printFrom h bound (.object r :: path) e.2
        "\x7b" ++ String.intercalate ", " items ++ "\x7d"
    | v => v.scalarText

/-- The printed form of a value. -/
def print (h : Heap) (v : Value) : String := printFrom h (h.size + 1) [] v

/-- The key that a value stands for in an object. -/
def keyOf (h : Heap) (v : Value) : String := h.print v

/-- Whether printing a value inside the containers `path` comes across a container. -/
def visitsFrom (h : Heap) (target : Container) : Nat → List Container → Value → Bool
  | 0, _, _ => false
  | bound + 1, path, v =>
    match v.container? with
    | none => false
    | some c =>
      if c = target then true
      else if path.contains c then false
      else (h.children c).any (visitsFrom h target bound (c :: path))

/-- Whether printing a value comes across a container. -/
def visits (h : Heap) (target : Container) (v : Value) : Bool :=
  visitsFrom h target (h.size + 1) [] v

/-- The form of a value in dumps. -/
def inspect (h : Heap) : Value → String
  | .string s => s!"String({Quoted.quote s})"
  | .null => "Null"
  | v => s!"{v.typeName}({h.print v})"

end Heap

end ScriptLang
