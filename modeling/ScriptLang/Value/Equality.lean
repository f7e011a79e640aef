import ScriptLang.Value.Heap

/-!
# Equality of values

* `Value.same` is the equality of the language: scalars by value, containers and functions by
  identity. Not-a-number differs from itself.
* `Value.sameOrNaN` also takes not-a-number for equal to itself.
* `Heap.deepEq` compares containers by their contents. A pair of containers that is already being
  compared further out counts as equal, which makes the comparison end on cyclic contents.
-/

namespace ScriptLang

namespace Value

/-- Equality: scalars by value, containers and functions by identity. -/
def same : Value → Value → Bool
  | null, null => true
  | bool a, bool b => a == b
  | number a, number b => a == b
  | string a, string b => a == b
  | array a, array b => a == b
  | object a, object b => a == b
  | closure a _ _, closure b _ _ => a == b
  | builtin a _, builtin b _ => a == b
  | datetime a, datetime b => a == b
  | _, _ => false

/-- Equality in which not-a-number equals itself. -/
def sameOrNaN (a b : Value) : Bool :=
  match a, b with
  | number x, number y => (x.isNaN && y.isNaN) || a.same b
  | _, _ => a.same b

/-- Whether a value is a literal. -/
def isLiteral (v : Value) : Literal → Bool
  | .number x => v.same (number x)
  | .string s => v.same (string s)
  | .boolean b => v.same (bool b)
  | .null => v.isNull

end Value

namespace Heap

/-- Deep equality inside the comparison of the pairs `path`. The bound limits the depth; a path
without repetition is never longer than the number of pairs. -/
def deepEqFrom (h : Heap) : Nat → List (Container × Container) → Value → Value → Bool
  | 0, _, a, b => a.same b
  | bound + 1, path, a, b =>
    if a.same b then true
    else
      match a, b with
      | .array x, .array y =>
        let pair := (Container.array x, Container.array y)
        if path.contains pair then true
        else
          let xs := h.array x
          let ys := h.array y
          xs.size == ys.size &&
            (xs.toList.zip ys.toList).all fun p => deepEqFrom h bound (pair :: path) p.1 p.2
      | .object x, .object y =>
        let pair := (Container.object x, Container.object y)
        if path.contains pair then true
        else
          let xs := h.object x
          let ys := h.object y
          xs.size == ys.size &&
            xs.toList.all fun e =>
              match ys.get? e.1 with
              | some v => deepEqFrom h bound (pair :: path) e.2 v
              | none => false
      | _, _ => false

/-- Equality by contents. -/
def deepEq (h : Heap) (a b : Value) : Bool :=
  deepEqFrom h (h.arrays.size * h.arrays.size + h.objects.size * h.objects.size + 1) [] a b

end Heap

end ScriptLang
