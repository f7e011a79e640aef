/-!
# Spans and locations

A `Span` is a half-open range of byte offsets into one source text; a `Location` adds the file and
the human position (line and column, both counted from one) of its first character.

* Offsets never exceed `Span.maxOffset`: `Span.ofRange` clamps larger ones, `Span.ofRange?` refuses
  them and says which end is too large.
* `Span.merge` is the smallest span that covers two spans.
* `Span.adjacentTo` holds when one span ends exactly where the other begins; the grammar uses it to
  tell an element write `a[0]` from a name followed by an array literal.
-/

namespace ScriptLang

/-- A half-open range of byte offsets. -/
structure Span where
  /-- Offset of the first byte. -/
  start : Nat
  /-- Offset just past the last byte. -/
  stop : Nat
  deriving DecidableEq, Repr, Inhabited

/-- Why a pair of offsets is not a span. -/
inductive SpanError where
  /-- The first offset is larger than `Span.maxOffset`. -/
  | startTooLarge (offset : Nat)
  /-- The last offset is larger than `Span.maxOffset`. -/
  | stopTooLarge (offset : Nat)
  deriving DecidableEq, Repr

/-- The wording of a refused pair of offsets. -/
def SpanError.message : SpanError → String
  | .startTooLarge n => s!"span start {n} exceeds the maximum source size"
  | .stopTooLarge n => s!"span end {n} exceeds the maximum source size"

namespace Span

/-- The largest offset that a span can hold. -/
def maxOffset : Nat := 4294967295

/-- The span of things that stand nowhere in a source text. -/
def nowhere : Span := ⟨0, 0⟩

/-- The empty span at `offset`. -/
def point (offset : Nat) : Span := ⟨offset, offset⟩

/-- The span of a pair of offsets, clamped to `maxOffset`. -/
def ofRange (start stop : Nat) : Span := ⟨min start maxOffset, min stop maxOffset⟩

/-- The span of a pair of offsets, if both fit. -/
def ofRange? (start stop : Nat) : Except SpanError Span :=
  if maxOffset < start then .error (.startTooLarge start)
  else if maxOffset < stop then .error (.stopTooLarge stop)
  else .ok ⟨start, stop⟩

/-- Number of bytes covered. -/
def length (s : Span) : Nat := s.stop - s.start

/-- Whether nothing is covered. -/
def isEmpty (s : Span) : Bool := s.start == s.stop

/-- Whether the byte at `offset` is covered. -/
def contains (s : Span) (offset : Nat) : Bool := s.start ≤ offset && offset < s.stop

/-- The smallest span that covers both. -/
def merge (a b : Span) : Span := ⟨min a.start b.start, max a.stop b.stop⟩

/-- Whether `b` begins exactly where `a` ends. -/
def adjacentTo (a b : Span) : Bool := a.stop == b.start

/-- The text `start..stop`. -/
def text (s : Span) : String := s!"{s.start}..{s.stop}"

@[simp] theorem length_point (n : Nat) : (point n).length = 0 := Nat.sub_self n

@[simp] theorem isEmpty_point (n : Nat) : (point n).isEmpty = true := by simp [isEmpty, point]

theorem merge_comm (a b : Span) : a.merge b = b.merge a := by
  simp [merge, Nat.min_comm, Nat.max_comm]

/-- A pair of offsets that fits is kept as it is. -/
theorem ofRange_eq_of_le {a b : Nat} (ha : a ≤ maxOffset) (hb : b ≤ maxOffset) :
    ofRange a b = ⟨a, b⟩ := by
  simp [ofRange, Nat.min_eq_left ha, Nat.min_eq_left hb]

end Span

/-- A place in a source text: file, line, column (both from one) and byte range. -/
structure Location where
  /-- Name of the file. -/
  file : String
  /-- Line of the first character, from one; zero when there is no position. -/
  line : Nat
  /-- Column of the first character, from one; zero when there is no position. -/
  column : Nat
  /-- The bytes covered. -/
  span : Span
  deriving DecidableEq, Repr, Inhabited

namespace Location

/-- The location of things that have no position in `file`. -/
def synthetic (file : String) : Location := ⟨file, 0, 0, .nowhere⟩

/-- Offset of the first byte. -/
def start (l : Location) : Nat := l.span.start

/-- Number of bytes covered. -/
def length (l : Location) : Nat := l.span.length

/-- From the beginning of `a` to the end of `b`, at the position of `a`. -/
def through (a b : Location) : Location := { a with span := a.span.merge b.span }

/-- The text `file:line:column`. -/
def display (l : Location) : String := s!"{l.file}:{l.line}:{l.column}"

/-- The text `file:line:column @ start..stop`. -/
def describe (l : Location) : String := s!"{l.display} @ {l.span.text}"

@[simp] theorem through_file (a b : Location) : (a.through b).file = a.file := rfl

@[simp] theorem through_line (a b : Location) : (a.through b).line = a.line := rfl

@[simp] theorem through_column (a b : Location) : (a.through b).column = a.column := rfl

end Location

end ScriptLang
