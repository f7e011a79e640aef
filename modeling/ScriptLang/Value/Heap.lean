import ScriptLang.Value.Basic
import ScriptLang.Value.OrderedMap

/-!
# The heap

The contents of arrays and objects, by reference. A `Heap` has one table for each kind of container,
so a reference to an array never meets an object.

* `Heap.allocArray` and `Heap.allocObject` make new containers, `Heap.freshIdentity` gives out the
  identities of function values.
* `Heap.array` and `Heap.object` read, `Heap.setArray`, `Heap.modifyArray` and `Heap.modifyObject`
  write.
* A `Container` is what a value holds by reference.
-/

namespace ScriptLang

/-- Something that a value holds by reference. -/
inductive Container where
  | array (ref : Ref)
  | object (ref : Ref)
  deriving DecidableEq, Repr

/-- The container that a value is. -/
def Value.container? : Value → Option Container
  | .array r => some (.array r)
  | .object r => some (.object r)
  | _ => none

/-- The contents of all containers. -/
structure Heap where
  /-- The elements of the arrays. -/
  arrays : Array (Array Value) := #[]
  /-- The entries of the objects. -/
  objects : Array (OrderedMap Value) := #[]
  /-- The number of identities given to function values so far. -/
  identities : Nat := 0
  deriving Inhabited

namespace Heap

/-- The heap without containers. -/
def empty : Heap := {}

/-- Number of containers. -/
def size (h : Heap) : Nat := h.arrays.size + h.objects.size

/-- Makes an array. -/
def allocArray (h : Heap) (items : Array Value) : Value × Heap :=
  let ref := h.arrays.size
  (.array ref, { h with arrays := h.arrays.push items })

/-- Makes an object. -/
def allocObject (h : Heap) (entries : OrderedMap Value) : Value × Heap :=
  let ref := h.objects.size
  (.object ref, { h with objects := h.objects.push entries })

/-- The identity of a new function value. -/
def freshIdentity (h : Heap) : Nat × Heap :=
  let id := h.identities
  (id, { h with identities := id + 1 })

/-- The elements of an array. -/
def array (h : Heap) (r : Ref) : Array Value := h.arrays.getD r #[]

/-- The entries of an object. -/
def object (h : Heap) (r : Ref) : OrderedMap Value := h.objects.getD r .empty

/-- Changes the elements of an array. -/
def modifyArray (h : Heap) (r : Ref) (f : Array Value → Array Value) : Heap :=
  { h with arrays := h.arrays.modify r f }

/-- Changes the entries of an object. -/
def modifyObject (h : Heap) (r : Ref) (f : OrderedMap Value → OrderedMap Value) : Heap :=
  { h with objects := h.objects.modify r f }

/-- The values directly inside a container. -/
def children (h : Heap) : Container → List Value
  | .array r => (h.array r).toList
  | .object r => (h.object r).values

end Heap

end ScriptLang
