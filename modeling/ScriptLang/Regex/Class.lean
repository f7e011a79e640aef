import ScriptLang.Regex.Escape

/-!
# Reading patterns: classes in brackets

* A class lists characters, ranges and other classes; two signs of the same kind combine what stands
  on their left with what stands on their right, from left to right.
* `PatternClass.read` reads a class from its bracket on.
-/

namespace ScriptLang.PatternClass

open PatternCursor

/-- The class of ASCII characters with a name. -/
def asciiClass? : String → Option AsciiClass
  | "alnum" => some .alnum
  | "alpha" => some .alpha
  | "ascii" => some .ascii
  | "blank" => some .blank
  | "cntrl" => some .cntrl
  | "digit" => some .digit
  | "graph" => some .graph
  | "lower" => some .lower
  | "print" => some .print
  | "punct" => some .punct
  | "space" => some .space
  | "upper" => some .upper
  | "word" => some .word
  | "xdigit" => some .xdigit
  | _ => none

/-- A class of the form `[:name:]` or `[:^name:]`, if one comes next: with whether it is negated,
and how many characters it takes. -/
def asciiAhead? (cs : List Char) : Option (AsciiClass × Bool × Nat) :=
  match cs with
  | '[' :: ':' :: rest =>
    let negated := rest.head? == some '^'
    let rest := if negated then rest.drop 1 else rest
    let name := rest.takeWhile (· != ':')
    if [':', ']'].isPrefixOf (rest.drop name.length) then
      (asciiClass? (String.ofList name)).map fun kind =>
        (kind, negated, name.length + 4 + if negated then 1 else 0)
    else none
  | _ => none

/-- A class of ASCII characters, if one comes next. -/
def ascii? : PatternReading (Option ClassNode) := do
  let s ← get
  match asciiAhead? s.rest with
  | some (kind, negated, length) =>
    let place := s.place.advanceAll (s.rest.take length)
    set { s with rest := s.rest.drop length, place }
    return some (.ascii ⟨s.place, place⟩ kind negated)
  | none => return none

/-- A character or an escape. -/
def item : PatternReading PatternNode := do
  match ← peek with
  | some '\\' => PatternEscape.escape
  | c =>
    let extent ← charStretch
    let _ ← bump
    return .char ⟨c.getD '\\', false, extent⟩

/-- What an item contributes to a class. -/
def member : PatternNode → PatternReading ClassNode
  | .char c => return .char c
  | .letter e kind negated => return .letter e kind negated
  | .property e p => return .property e p
  | other => refuse .classEscapeInvalid other.extent

/-- An item as an end of a range. -/
def bound : PatternNode → PatternReading PatternChar
  | .char c => return c
  | other => refuse .classRangeLiteral other.extent

/-- A member or a range. `opening` is shown if the class ends too early. -/
def memberOrRange (opening : Stretch) : PatternReading ClassNode := do
  let first ← item
  skipSpace
  if ← atEnd then refuse .classUnclosed opening
  let s ← get
  let next :=
    if s.extended then peekBehindSpace (s.rest.drop 1) false (s.rest.drop 1) else s.rest[1]?
  if s.rest.head? != some '-' || next == some ']' || next == some '-' then member first
  else
    if !(← bumpSpaced) then refuse .classUnclosed opening
    let last ← item
    let extent : Stretch := ⟨first.extent.start, last.extent.stop⟩
    let a ← bound first
    let b ← bound last
    if b.char < a.char then refuse .classRangeInvalid extent
    return .range extent a b

/-- The dashes that stand for themselves at the beginning of a class, the latest first. -/
def dashes (start : Position) : Nat → List ClassNode → PatternReading (List ClassNode)
  | 0, items => return items
  | n + 1, items => do
    if ← nextIs '-' then
      let dash : ClassNode := .char ⟨'-', false, ← charStretch⟩
      if !(← bumpSpaced) then refuse .classUnclosed ⟨start, start⟩
      dashes start n (dash :: items)
    else return items

/-- The beginning of a class: its stretch, whether it is negated, and the characters that stand for
themselves because they come first. -/
def opening : PatternReading (Stretch × Bool × List ClassNode) := do
  let start ← placeNow
  if !(← bumpSpaced) then refuse .classUnclosed (← since start)
  let negated ← nextIs '^'
  if negated then
    if !(← bumpSpaced) then refuse .classUnclosed (← since start)
  let items ← dashes start (← get).rest.length []
  if items.isEmpty && (← nextIs ']') then
    let bracket : ClassNode := .char ⟨']', false, ← charStretch⟩
    if !(← bumpSpaced) then refuse .classUnclosed (← since start)
    return (← since start, negated, [bracket])
  else return (← since start, negated, items)

/-- The sign of an operation, if one comes next. -/
def opAhead? : List Char → Option ClassOp
  | '&' :: '&' :: _ => some .intersection
  | '-' :: '-' :: _ => some .difference
  | '~' :: '~' :: _ => some .symmetricDifference
  | _ => none

/-- An operand, combined with what stands on its left. -/
def combine (left : Option (ClassNode × ClassOp)) (right : ClassNode) : ClassNode :=
  match left with
  | none => right
  | some (l, op) => .combined ⟨l.extent.start, right.extent.stop⟩ op l right

/-- The rest of a class behind its beginning. `items` are the latest operand, the last item first,
which began at `start`; `left` is what stands on its left. A bound on the number of steps comes
first. -/
def inside (head : Stretch) (negated : Bool) :
    Nat → Position → List ClassNode → Option (ClassNode × ClassOp) → PatternReading PatternNode
  | 0, _, _, _ => refuse .classUnclosed head
  | n + 1, start, items, left => do
    skipSpace
    let operand : ClassNode := combine left (.ofItems ⟨start, start⟩ items.reverse)
    let rest := (← get).rest
    match rest.head?, opAhead? rest with
    | none, _ => refuse .classUnclosed head
    | some '[', _ =>
      match ← ascii? with
      | some c => inside head negated n start (c :: items) left
      | none =>
        let (head', negated', items') ← opening
        match ← inside head' negated' n head'.stop items' none with
        | .bracketed e neg body =>
          inside head negated n start (.bracketed e neg body :: items) left
        | other => refuse .classEscapeInvalid other.extent
    | some ']', _ =>
      let _ ← bump
      return .bracketed (← since head.start) negated operand
    | some _, some op =>
      let _ ← bump
      let _ ← bump
      inside head negated n (← placeNow) [] (some (operand, op))
    | some _, none =>
      let m ← memberOrRange head
      inside head negated n start (m :: items) left

/-- A class, from its bracket on. -/
def read : PatternReading PatternNode := do
  let (head, negated, items) ← opening
  inside head negated ((← get).rest.length + 1) head.stop items none

end ScriptLang.PatternClass
