import ScriptLang.Regex.Cursor
import ScriptLang.Number.Binary

/-!
# Reading patterns: escapes

What may follow a backslash, in a class as well as outside.

* Punctuation stands for itself behind a backslash, some letters stand for control characters,
  classes or anchors, and `x`, `u` and `U` introduce code points in hexadecimal digits.
* `PatternEscape.decimal` reads the numbers of counted repetitions.
-/

namespace ScriptLang.PatternEscape

open PatternCursor

/-- Characters that mean something in a pattern. -/
def isMeta (c : Char) : Bool := "\\.+*?()|[]\x7b\x7d^$#&-~".contains c

/-- Characters that a backslash leaves as they are. -/
def standsForItself (c : Char) : Bool :=
  isMeta c || (c.toNat < 128 && !c.isAlphanum && c != '<' && c != '>')

/-- The control characters that letters stand for. -/
def control? : Char → Option Char
  | 'a' => some '\x07'
  | 'f' => some '\x0c'
  | 't' => some '\t'
  | 'n' => some '\n'
  | 'r' => some '\r'
  | 'v' => some '\x0b'
  | _ => none

/-- Whether a character is a hexadecimal digit. -/
def isHex (c : Char) : Bool := c.isDigit || ('a' ≤ c && c ≤ 'f') || ('A' ≤ c && c ≤ 'F')

/-- The value of hexadecimal digits. -/
def hexValue (digits : List Char) : Nat :=
  digits.foldl
    (fun n c =>
      16 * n + if c.isDigit then c.toNat - '0'.toNat else c.toLower.toNat - 'a'.toNat + 10)
    0

/-- The character of a code point. -/
def charOf? (n : Nat) : Option Char := if n.isValidChar then some (Char.ofNat n) else none

/-- A number in decimal digits, which blanks may surround, with the stretch of its digits. Where it
is missing or too large the reason takes its place, and the reading goes on. -/
def decimal : PatternReading (Except PatternFault Nat × Stretch) := do
  modify fun s =>
    let blanks := s.rest.takeWhile Blank.isBlank
    { s with rest := s.rest.drop blanks.length, place := s.place.advanceAll blanks }
  let start ← placeNow
  let digits ← takeWhile Char.isDigit
  let extent ← since start
  let _ ← takeWhile Blank.isBlank
  let n := digits.foldl (fun n c => 10 * n + (c.toNat - '0'.toNat)) 0
  let number :=
    if digits.isEmpty then .error .countEmpty
    else if n < Nat.pow 2 32 then .ok n
    else .error .decimalInvalid
  return (number, extent)

/-- Hexadecimal digits, so many of them. -/
def fixedDigits : Nat → Bool → PatternReading (List Char)
  | 0, _ => return []
  | n + 1, isFirst => do
    if !isFirst then
      if !(← bumpSpaced) then refuse .escapeUnfinished (← point)
    match ← peek with
    | some c =>
      if isHex c then return c :: (← fixedDigits n false)
      else refuse .hexInvalidDigit (← charStretch)
    | none => refuse .escapeUnfinished (← point)

/-- The code point that `start` introduces. `count` is the number of digits that it has without
braces. -/
def hexadecimal (start : Position) (count : Nat) : PatternReading PatternChar := do
  if !(← bumpSpaced) then refuse .escapeUnfinished (← point)
  if ← nextIs '\x7b' then
    let brace ← placeNow
    let inside := (← charStretch).stop
    let _ ← bumpSpaced
    let digits ← takeWhile isHex
    if ← atEnd then refuse .escapeUnfinished (← since brace)
    if !(← nextIs '\x7d') then refuse .hexInvalidDigit (← charStretch)
    let stop ← placeNow
    let _ ← bumpSpaced
    if digits.isEmpty then refuse .hexEmpty (← since brace)
    match charOf? (hexValue digits) with
    | some c => return ⟨c, false, ← since start⟩
    | none => refuse .hexInvalid ⟨inside, stop⟩
  else
    let first ← placeNow
    let digits ← fixedDigits count true
    let _ ← bumpSpaced
    match charOf? (hexValue digits) with
    | some c => return ⟨c, count == 2, ← since start⟩
    | none => refuse .hexInvalid (← since first)

/-- A property of the form `name`, `name=value`, `name:value` or `name!=value`. -/
def propertyOf (negated : Bool) (text : List Char) : PropertyClass :=
  let valued (skip : Nat) (negate : Bool) (i : Nat) : PropertyClass :=
    ⟨.value (String.ofList (text.take i)) (String.ofList (text.drop (i + skip))), negated != negate⟩
  let unequal := (List.range text.length).find? fun i => ['!', '='].isPrefixOf (text.drop i)
  match unequal, text.idxOf? ':', text.idxOf? '=' with
  | some i, _, _ => valued 2 true i
  | none, some i, _ => valued 1 false i
  | none, none, some i => valued 1 false i
  | none, none, none => ⟨.name (String.ofList text), negated⟩

/-- A class by a property. The cursor is at the letter that introduces it. -/
def property (start : Position) (negated : Bool) : PatternReading PatternNode := do
  if !(← bumpSpaced) then refuse .escapeUnfinished (← point)
  if ← nextIs '\x7b' then
    let _ ← bumpSpaced
    let name ← takeWhile (· != '\x7d')
    if ← atEnd then refuse .escapeUnfinished (← point)
    let _ ← bump
    return .property (← since start) (propertyOf negated name)
  else
    let c := (← peek).getD '\\'
    if c = '\\' then refuse .unicodeClassInvalid (← charStretch)
    let _ ← bumpSpaced
    return .property (← since start) ⟨.letter c, negated⟩

/-- The anchor of a name in braces behind `\b`, if what follows can be one; else the brace begins a
counted repetition. -/
def wordBoundaryName (start : Position) : PatternReading (Option Anchor) := do
  let before ← get
  if !(← bumpSpaced) then refuse .wordBoundaryUnfinished (← since start)
  let inside ← placeNow
  let accept (c : Char) : Bool := c.isAlpha || c == '-'
  if !((← peek).any accept) then
    set before
    return none
  let name ← takeWhile accept
  if !(← nextIs '\x7d') then refuse .wordBoundaryUnclosed (← since before.place)
  let stop ← placeNow
  let _ ← bump
  match String.ofList name with
  | "start" => return some .wordStart
  | "end" => return some .wordEnd
  | "start-half" => return some .wordStartHalf
  | "end-half" => return some .wordEndHalf
  | _ => refuse .wordBoundaryUnrecognized ⟨inside, stop⟩

/-- An escape, from its backslash on. -/
def escape : PatternReading PatternNode := do
  let start ← placeNow
  if !(← bump) then refuse .escapeUnfinished (← since start)
  let c := (← peek).getD '\\'
  let letter (kind : LetterClass) (negated : Bool) : PatternReading PatternNode := do
    let _ ← bump
    return .letter (← since start) kind negated
  let anchor (kind : Anchor) : PatternReading PatternNode := do
    return .anchor (← since start) kind
  if c.isDigit then refuse .backreference ⟨start, (← charStretch).stop⟩
  match c with
  | 'x' => return .char (← hexadecimal start 2)
  | 'u' => return .char (← hexadecimal start 4)
  | 'U' => return .char (← hexadecimal start 8)
  | 'p' => property start false
  | 'P' => property start true
  | 'd' => letter .digit false
  | 'D' => letter .digit true
  | 's' => letter .space false
  | 'S' => letter .space true
  | 'w' => letter .word false
  | 'W' => letter .word true
  | _ =>
    let _ ← bump
    if standsForItself c then return .char ⟨c, false, ← since start⟩
    match control? c, c with
    | some d, _ => return .char ⟨d, false, ← since start⟩
    | none, 'A' => anchor .textStart
    | none, 'z' => anchor .textEnd
    | none, 'b' =>
      if ← nextIs '\x7b' then
        match ← wordBoundaryName start with
        | some kind => anchor kind
        | none => return .anchor ⟨start, (← placeNow)⟩ .wordBoundary
      else anchor .wordBoundary
    | none, 'B' => anchor .noWordBoundary
    | none, '<' => anchor .wordStart
    | none, '>' => anchor .wordEnd
    | none, _ => refuse .escapeUnrecognized (← since start)

end ScriptLang.PatternEscape
