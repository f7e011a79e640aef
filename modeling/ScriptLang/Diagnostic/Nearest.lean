/-!
# Near misses

The edit distance of two names, and the choice of a known name that a misspelt one may stand for.

* `Nearest.distance` counts the fewest insertions, deletions and substitutions of characters.
* `Nearest.choose` takes the first candidate of least distance, if that is at most
  `Nearest.threshold`.
-/

namespace ScriptLang.Nearest

/-- The largest distance at which a name is still suggested. -/
def threshold : Nat := 2

/-- One more row of the distance table. `row` holds the distances of the prefixes of the second word
(from `diagonal` on) to the first word so far, `left` is the entry already computed in the new row.
-/
def nextRow (a : Char) : List Char → Nat → Nat → List Nat → List Nat
  | b :: bs, left, diagonal, above :: row =>
    let entry := min (min (above + 1) (left + 1)) (diagonal + if a = b then 0 else 1)
    entry :: nextRow a bs entry above row
  | _, _, _, _ => []

/-- The last row of the distance table, whose first entry is `first`. -/
def lastRow (bs : List Char) : List Char → Nat → List Nat → Nat × List Nat
  | [], first, row => (first, row)
  | a :: as, first, row => lastRow bs as (first + 1) (nextRow a bs (first + 1) first row)

/-- The edit distance of two texts, in characters. -/
def distance (a b : String) : Nat :=
  let bs := b.toList
  let (first, row) := lastRow bs a.toList 0 (List.range' 1 bs.length)
  row.getLastD first

/-- The candidate with the least distance seen so far. -/
def closest (name : String) : List String → Option (String × Nat) → Option (String × Nat)
  | [], best => best
  | c :: cs, best =>
    if c.isEmpty then closest name cs best
    else
      let d := distance name c
      match best with
      | none => closest name cs (some (c, d))
      | some (_, least) => closest name cs (if d < least then some (c, d) else best)

/-- The first candidate of least distance to `name`, if it is near enough. Empty candidates do not
count. -/
def choose (name : String) (candidates : List String) : Option String :=
  match closest name candidates none with
  | some (c, d) => if d ≤ threshold then some c else none
  | none => none

/-- The question that names a candidate. -/
def question (candidate : String) : String := s!"Did you mean '{candidate}'?"

end ScriptLang.Nearest
