/-!
# Sets of characters

A set of characters as the ranges of its code points, in order and apart from each other.

* `Ranges.decode` reads the compact form in which tables are kept: hexadecimal numbers, by turns the
  length of a gap and the length of the range that follows it.
* `Ranges.contains` looks a code point up by bisection.
* `Ranges.joined` merges ranges that overlap or meet, so that sets have one form.
* Complements are taken below a bound, the last code point of the universe; the other operations
  come from union and complement.
-/

namespace ScriptLang

/-- Ranges of code points, ends included, in order. -/
structure Ranges where
  bounds : Array (Nat × Nat)
  deriving Inhabited, DecidableEq

namespace Ranges

/-- The value of a hexadecimal digit in lower case. -/
def hexValue (c : Char) : Nat :=
  if c.isDigit then c.toNat - '0'.toNat else c.toNat - 'a'.toNat + 10

/-- The hexadecimal numbers of a text. `digits` is whether `n` holds digits already read. -/
def numbers : List Char → Nat → Bool → List Nat
  | [], n, digits => if digits then [n] else []
  | c :: cs, n, digits =>
    if c = ' ' then if digits then n :: numbers cs 0 false else numbers cs 0 false
    else numbers cs (16 * n + hexValue c) true

/-- The ranges of gaps and lengths, from a code point on. -/
def ofGaps : Nat → List Nat → List (Nat × Nat)
  | start, gap :: length :: rest =>
    (start + gap, start + gap + length - 1) :: ofGaps (start + gap + length) rest
  | _, _ => []

/-- The ranges of a compact text, given in pieces. -/
def decode (pieces : List String) : Ranges :=
  ⟨(ofGaps 0 (pieces.flatMap fun p => numbers p.toList 0 false)).toArray⟩

/-- Whether a code point is in one of the ranges from `low` up to, but not with, `high`. -/
def search (bounds : Array (Nat × Nat)) (n : Nat) : Nat → Nat → Nat → Bool
  | 0, _, _ => false
  | fuel + 1, low, high =>
    if high ≤ low then false
    else
      let middle := (low + high) / 2
      match bounds[middle]? with
      | none => false
      | some (first, last) =>
        if n < first then search bounds n fuel low middle
        else if last < n then search bounds n fuel (middle + 1) high
        else true

/-- Whether a code point is in the set. -/
def contains (r : Ranges) (n : Nat) : Bool :=
  search r.bounds n (Nat.log2 r.bounds.size + 2) 0 r.bounds.size

end Ranges

end ScriptLang

/-! ### The Boolean algebra of sets -/

namespace ScriptLang.Ranges

/-- The last code point. -/
def lastPoint : Nat := 0x10FFFF

/-- The code points without any. -/
def empty : Ranges := ⟨#[]⟩

/-- Whether no code point is in the set. -/
def isEmpty (r : Ranges) : Bool := r.bounds.isEmpty

/-- The code points from one to another. -/
def between (first last : Nat) : Ranges := ⟨#[(first, last)]⟩

/-- The set of one character. -/
def single (c : Char) : Ranges := between c.toNat c.toNat

/-- Ranges ordered by their first points, merged where they overlap or meet. -/
def joined : List (Nat × Nat) → List (Nat × Nat)
  | (a, b) :: (c, d) :: rest =>
    if c ≤ b + 1 then joined ((a, max b d) :: rest) else (a, b) :: joined ((c, d) :: rest)
  | rs => rs
termination_by rs => rs.length

/-- The set of the code points of some ranges, in any order. -/
def ofList (rs : List (Nat × Nat)) : Ranges :=
  ⟨(joined (rs.mergeSort fun p q => p.1 ≤ q.1)).toArray⟩

/-- The code points in either set. -/
def union (r s : Ranges) : Ranges := ofList (r.bounds.toList ++ s.bounds.toList)

/-- The code points in one of some sets. -/
def unions (sets : List Ranges) : Ranges := ofList (sets.flatMap (·.bounds.toList))

/-- The set of some code points. -/
def points (ns : List Nat) : Ranges := ofList (ns.map fun n => (n, n))

/-- The ranges between others, from a code point up to the last one. -/
def gaps (top : Nat) : Nat → List (Nat × Nat) → List (Nat × Nat)
  | start, (a, b) :: rest =>
    if start < a then (start, a - 1) :: gaps top (b + 1) rest else gaps top (b + 1) rest
  | start, [] => if start ≤ top then [(start, top)] else []

/-- The code points up to a last one that are not in the set. -/
def complement (top : Nat) (r : Ranges) : Ranges := ⟨(gaps top 0 r.bounds.toList).toArray⟩

/-- The code points in both sets. -/
def inter (r s : Ranges) : Ranges :=
  complement lastPoint (union (complement lastPoint r) (complement lastPoint s))

/-- The code points in the first set only. -/
def diff (r s : Ranges) : Ranges := inter r (complement lastPoint s)

/-- The code points in one set only. -/
def symmDiff (r s : Ranges) : Ranges := diff (union r s) (inter r s)

/-- Whether all code points of the set are ASCII. -/
def isAscii (r : Ranges) : Bool := r.bounds.all fun p => p.2 < 128

end ScriptLang.Ranges
