/-!
# Stable sorting

Sorting by a comparison that may not be an order: a number that is not comparable is neither less
nor greater than any other. Where all elements are comparable the result is the one stable
arrangement; where some are not, it is the one that this method comes to.

* `Sorting.insertion` inserts one element after the other. Short lists are sorted so.
* `Sorting.small` sorts two halves by insertion and merges them from both ends at once. It fails if
  the two ends do not meet, which happens only if the comparison is no order.
* `Sorting.quick` divides by a pivot; what equals the pivot of the division before is set apart.
* `Sorting.byRuns` finds stretches that are in order already and merges them along a balanced tree.
  Stretches that are not in order are left together as long as possible, and divided by pivots.
* `Sorting.stable` is the whole method.
-/

namespace ScriptLang.Sorting

variable {α : Type} [Inhabited α]

/-! ## Insertion -/

/-- Puts an element into a sorted list, behind those that are not greater. The list is given from
its last element. -/
def insertBy (less : α → α → Bool) (v : α) : List α → List α
  | [] => [v]
  | w :: ws => if less v w then w :: insertBy less v ws else v :: w :: ws

/-- Inserts elements one after the other into a sorted list, which is given from its last
element. -/
def insertAll (less : α → α → Bool) (done : List α) (vs : List α) : List α :=
  (vs.foldl (fun done v => insertBy less v done) done).reverse

/-- Sorts by insertion. -/
def insertion (less : α → α → Bool) (vs : List α) : List α := insertAll less [] vs

/-! ## Short stretches -/

/-- Four elements in order: the least and the greatest of two pairs, and between them the others. -/
def four (less : α → α → Bool) (p q r s : α) : List α :=
  let (a, b) := if less q p then (q, p) else (p, q)
  let (c, d) := if less s r then (s, r) else (r, s)
  let swapsLow := less c a
  let swapsHigh := less d b
  let low := if swapsLow then c else a
  let high := if swapsHigh then b else d
  let left := if swapsLow then a else if swapsHigh then c else b
  let right := if swapsHigh then d else if swapsLow then b else c
  if less right left then [low, right, left, high] else [low, left, right, high]

/-- A half of a short stretch, sorted; the first four elements at once if `byFour`. -/
def half (less : α → α → Bool) (byFour : Bool) (vs : List α) : List α :=
  match byFour, vs with
  | true, p :: q :: r :: s :: rest => insertAll less (four less p q r s).reverse rest
  | _, vs => insertion less vs

/-- Where a merge from both ends has come to: the next places of both halves from the front, and
the places behind the next ones from the back. -/
structure Ends where
  left : Nat
  right : Nat
  leftEnd : Nat
  rightEnd : Nat

/-- Merges two sorted halves, so many elements from the front and as many from the back. `front` is
what was taken from the front, the last one first, and `back` what was taken from the back. -/
def mergeEnds (less : α → α → Bool) (vs : Array α) :
    Nat → Ends → List α → List α → Option (List α)
  | 0, e, front, back =>
    let fromLeft := e.left < e.leftEnd
    let odd := vs.size % 2 = 1
    let left := if odd && fromLeft then e.left + 1 else e.left
    let right := if odd && !fromLeft then e.right + 1 else e.right
    let last := if odd then [vs.getD (if fromLeft then e.left else e.right) default] else []
    if left = e.leftEnd && right = e.rightEnd then some (front.reverse ++ last ++ back) else none
  | n + 1, e, front, back =>
    let takesRight := less (vs.getD e.right default) (vs.getD e.left default)
    let first := vs.getD (if takesRight then e.right else e.left) default
    let takesLeft := less (vs.getD (e.rightEnd - 1) default) (vs.getD (e.leftEnd - 1) default)
    let last := vs.getD ((if takesLeft then e.leftEnd else e.rightEnd) - 1) default
    let e : Ends :=
      { left := if takesRight then e.left else e.left + 1
        right := if takesRight then e.right + 1 else e.right
        leftEnd := if takesLeft then e.leftEnd - 1 else e.leftEnd
        rightEnd := if takesLeft then e.rightEnd else e.rightEnd - 1 }
    mergeEnds less vs n e (first :: front) (last :: back)

/-- Sorts a short stretch. -/
def small (less : α → α → Bool) (vs : List α) : Option (List α) :=
  if vs.length < 2 then some vs
  else
    let middle := vs.length / 2
    let byFour := 8 ≤ vs.length
    let halves := half less byFour (vs.take middle) ++ half less byFour (vs.drop middle)
    mergeEnds less halves.toArray middle ⟨0, middle, middle, vs.length⟩ [] []

/-- The longest stretch that is sorted as a short one. -/
def smallLength : Nat := 32

/-! ## Division by pivots -/

/-- The place of the median of three. -/
def median (less : α → α → Bool) (vs : Array α) (a b c : Nat) : Nat :=
  let lessAt (i j : Nat) : Bool := less (vs.getD i default) (vs.getD j default)
  let x := lessAt a b
  if x == lessAt a c then if lessAt b c != x then c else b else a

/-- The place of a median of medians, for stretches of so many elements from three places on. The
number of levels is bounded by the number that comes first. -/
def deepMedian (less : α → α → Bool) (vs : Array α) : Nat → Nat → Nat → Nat → Nat → Nat
  | 0, _, a, b, c => median less vs a b c
  | levels + 1, n, a, b, c =>
    if 64 ≤ n * 8 then
      let eighth := n / 8
      let inner (p : Nat) : Nat :=
        deepMedian less vs levels eighth p (p + eighth * 4) (p + eighth * 7)
      median less vs (inner a) (inner b) (inner c)
    else median less vs a b c

/-- The place of the pivot. -/
def pivotPlace (less : α → α → Bool) (vs : Array α) : Nat :=
  let eighth := vs.size / 8
  if vs.size < 64 then median less vs 0 (eighth * 4) (eighth * 7)
  else deepMedian less vs vs.size eighth 0 (eighth * 4) (eighth * 7)

/-- Divides a list: the elements that go left, and the others, both in their order. The element at
the place of the pivot goes where it is told. -/
def divide (goesLeft : α → Bool) (place : Nat) (pivotLeft : Bool) (vs : List α) :
    List α × List α :=
  let marked := vs.zipIdx.map fun (v, i) => (v, if i = place then pivotLeft else goesLeft v)
  ((marked.filter (·.2)).map (·.1), (marked.filter (!·.2)).map (·.1))

/-- Sorts by division. `limit` bounds the divisions one within another, after which `fallback`
sorts; `ancestor` is the pivot that everything here is not less than. The first number bounds the
steps. -/
def quick (less : α → α → Bool) (fallback : List α → Option (List α)) :
    Nat → Nat → Option α → List α → Option (List α)
  | 0, _, _, vs => small less vs
  | steps + 1, limit, ancestor, vs =>
    if vs.length ≤ smallLength then small less vs
    else
      match limit with
      | 0 => fallback vs
      | limit + 1 => do
        let place := pivotPlace less vs.toArray
        let pivot := vs.getD place default
        let (left, right) := divide (less · pivot) place false vs
        if ancestor.any (!less · pivot) || left.isEmpty then
          let (same, others) := divide (!less pivot ·) place true vs
          return same ++ (← quick less fallback steps limit none others)
        else
          let right ← quick less fallback steps limit (some pivot) right
          return (← quick less fallback steps limit ancestor left) ++ right

/-! ## Runs -/

/-- A stretch of a list, which may be in order. -/
structure Run (α : Type) where
  inOrder : Bool
  items : List α

/-- Merges from the front, as long as there is something on both sides. -/
def mergeFront (less : α → α → Bool) : Nat → List α → List α → List α → List α
  | steps + 1, l :: ls, r :: rs, done =>
    if less r l then mergeFront less steps (l :: ls) rs (r :: done)
    else mergeFront less steps ls (r :: rs) (l :: done)
  | _, ls, rs, done => done.reverse ++ ls ++ rs

/-- Merges from the back, both sides given from their last elements. -/
def mergeBack (less : α → α → Bool) : Nat → List α → List α → List α → List α
  | steps + 1, l :: ls, r :: rs, done =>
    if less r l then mergeBack less steps ls (r :: rs) (l :: done)
    else mergeBack less steps (l :: ls) rs (r :: done)
  | _, ls, rs, done => ls.reverse ++ rs.reverse ++ done

/-- Merges two sorted lists, from the side of the shorter one. -/
def merge (less : α → α → Bool) (ls rs : List α) : List α :=
  let steps := ls.length + rs.length
  if ls.length ≤ rs.length then mergeFront less steps ls rs []
  else mergeBack less steps ls.reverse rs.reverse []

/-- How many elements at the front go up, or down, without a break. -/
def runLength (goesOn : α → α → Bool) : List α → Nat
  | v :: w :: rest => if goesOn v w then runLength goesOn (w :: rest) + 1 else 1
  | vs => vs.length

/-- The run at the front of a list: as long as it is in order, if that is long enough, and otherwise
of a length of its own. `sort` sorts it at once, if it is to be. -/
def nextRun (less : α → α → Bool) (enough : Nat) (sort : Option (List α → Option (List α)))
    (vs : List α) : Option (Run α) :=
  let descends := match vs with
    | v :: w :: _ => less w v
    | _ => false
  let length := runLength (fun v w => less w v == descends) vs
  if enough ≤ length then
    let run := vs.take length
    some ⟨true, if descends then run.reverse else run⟩
  else
    match sort with
    | some sort => (sort (vs.take smallLength)).map (⟨true, ·⟩)
    | none => some ⟨false, vs.take enough⟩

/-- Joins two runs. Runs that are not in order stay together if neither is and there is room. -/
def joinRuns (less : α → α → Bool) (sort : List α → Option (List α)) (room : Nat) (l r : Run α) :
    Option (Run α) := do
  if l.inOrder || r.inOrder || room < l.items.length + r.items.length then
    let left ← if l.inOrder then some l.items else sort l.items
    let right ← if r.inOrder then some r.items else sort r.items
    return ⟨true, merge less left right⟩
  else return ⟨false, l.items ++ r.items⟩

/-- How deep the joint of two neighbours lies in a balanced tree over `length` elements, given the
places where the first one begins, where they meet, and where the second one ends. -/
def depth (length start middle stop : Nat) : Nat :=
  let scale := (Nat.pow 2 62 + length - 1) / length
  let difference := (scale * (start + middle)) ^^^ (scale * (middle + stop))
  if difference = 0 then 64 else 63 - Nat.log2 difference

/-- Joins the last run with those before it whose joints lie as deep as wanted, or deeper. The
lowest entry of the stack stays. -/
def collapse (join : Run α → Run α → Option (Run α)) (wanted : Nat) :
    List (Run α × Nat) → Run α → Option (List (Run α × Nat) × Run α)
  | (run, depth) :: below :: stack, last =>
    if wanted ≤ depth then do collapse join wanted (below :: stack) (← join run last)
    else some ((run, depth) :: below :: stack, last)
  | stack, last => some (stack, last)

/-- Finds the runs of a list, one after the other, and joins them. `place` is how many elements are
in runs already, the last of which is `last`. The first number bounds the steps. -/
def findRuns (next : List α → Option (Run α)) (join : Run α → Run α → Option (Run α))
    (length : Nat) : Nat → Nat → List α → List (Run α × Nat) → Run α → Option (Run α)
  | 0, _, _, _, last => some last
  | steps + 1, place, rest, stack, last => do
    if rest.isEmpty then
      return (← collapse join 0 stack last).2
    else
      let run ← next rest
      let stop := place + run.items.length
      let wanted := depth length (place - last.items.length) place stop
      let (stack, last) ← collapse join wanted stack last
      let rest := rest.drop run.items.length
      findRuns next join length steps stop rest ((last, wanted) :: stack) run

/-- The whole number near the square root of a length. -/
def rootOf (n : Nat) : Nat :=
  let shift := (1 + Nat.log2 (max n 1)) / 2
  (Nat.pow 2 shift + n / Nat.pow 2 shift) / 2

/-- Sorts a list by its runs, which are sorted at once if `eager`. -/
def byRuns (less : α → α → Bool) (sort : List α → Option (List α)) (eager : Bool) (vs : List α) :
    Option (List α) := do
  let n := vs.length
  let enough := if n ≤ 4096 then min (n - n / 2) 64 else rootOf n
  let room := max (max (n - n / 2) (min n 333333)) 170
  let next := nextRun less enough (if eager then some (small less) else none)
  let run ← findRuns next (joinRuns less sort room) n (n + 1) 0 vs [] ⟨true, []⟩
  if run.inOrder then return run.items else sort run.items

/-- Sorts by division, and by runs where the pivots are too bad. -/
def divided (less : α → α → Bool) (vs : List α) : Option (List α) :=
  quick less (byRuns less some true) vs.length (2 * Nat.log2 (max vs.length 1)) none vs

/-- The longest list that is sorted by insertion. -/
def insertionLength : Nat := 20

/-- Sorts a list, unless the comparison is found to be no order. -/
def stable (less : α → α → Bool) (vs : List α) : Option (List α) :=
  if vs.length ≤ insertionLength then some (insertion less vs)
  else byRuns less (divided less) (vs.length ≤ 2 * smallLength) vs

end ScriptLang.Sorting
