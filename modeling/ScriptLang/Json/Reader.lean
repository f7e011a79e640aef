import ScriptLang.Json.Basic
import ScriptLang.Json.Cursor
import ScriptLang.Number.Binary
import ScriptLang.Value.OrderedMap

/-!
# Reading JSON

* `JsonReader.read` reads a whole text. Arrays and objects may be nested `JsonReader.maxDepth` deep.
* Of a key that occurs again in an object, the first place and the last value count.
* Numbers are read in steps of double precision: the digits as an integer, as far as they fit into
  64 bits, then multiplied or divided by a power of ten (`JsonReader.scaled`).
-/

namespace ScriptLang.JsonReader

/-- A step of reading: a result and the cursor after it. -/
abbrev Step (α : Type) := Except JsonError (α × JsonCursor)

/-- How deep arrays and objects may be nested. -/
def maxDepth : Nat := 127

/-! ### Words -/

/-- Reads the rest of a word. -/
def word : List Char → JsonCursor → Except JsonError JsonCursor
  | [], c => .ok c
  | w :: ws, c =>
    match c.peek? with
    | none => c.failHere .endInValue
    | some ch => if ch = w then word ws c.advance else c.failNext .expectedWord

/-! ### Numbers -/

/-- Whether the next character is a digit. -/
def digit? (c : JsonCursor) : Option Nat :=
  match c.peek? with
  | some ch => if ch.isDigit then some (ch.toNat - '0'.toNat) else none
  | none => none

/-- Moves over digits and counts them. -/
def skipDigits : Nat → JsonCursor → Nat × JsonCursor
  | 0, c => (0, c)
  | fuel + 1, c =>
    match digit? c with
    | some _ =>
      let (n, c) := skipDigits fuel c.advance
      (n + 1, c)
    | none => (0, c)

/-- Reads digits onto a number as long as it fits into 64 bits, and counts them. -/
def digitsOnto : Nat → Nat → JsonCursor → Nat × Nat × JsonCursor
  | 0, n, c => (n, 0, c)
  | fuel + 1, n, c =>
    match digit? c with
    | some d =>
      let m := 10 * n + d
      if Nat.pow 2 64 ≤ m then (n, 0, c)
      else
        let (m, count, c) := digitsOnto fuel m c.advance
        (m, count + 1, c)
    | none => (n, 0, c)

/-- A power of ten with an exponent up to 308. -/
def powerOfTen (k : Nat) : Float := Binary.ofNat (Nat.pow 10 k)

/-- A number times a power of ten, in steps of double precision; none if it is too large. -/
def scaled : Nat → Float → Int → Option Float
  | 0, f, _ => some f
  | fuel + 1, f, e =>
    if e.natAbs ≤ 308 then
      if 0 ≤ e then
        let r := f * powerOfTen e.natAbs
        if r.isInf then none else some r
      else some (f / powerOfTen e.natAbs)
    else if f == 0 then some f
    else if 0 ≤ e then none
    else scaled fuel (f / powerOfTen 308) (e + 308)

/-- The number of a sign, digits and a power of ten. -/
def finish (negative : Bool) (digits : Nat) (exponent : Int) (c : JsonCursor) : Step Float :=
  match scaled 8 (Binary.ofNat digits) exponent with
  | some f => .ok (if negative then -f else f, c)
  | none => c.failHere .numberTooLarge

/-- The largest value of an exponent's digits. -/
def exponentLimit : Nat := 2147483647

/-- Reads the digits of an exponent onto a number; `none` if they exceed the limit, with the cursor
after the digit that does. -/
def exponentOnto : Nat → Nat → JsonCursor → Option Nat × JsonCursor
  | 0, n, c => (some n, c)
  | fuel + 1, n, c =>
    match digit? c with
    | some d =>
      let m := 10 * n + d
      if exponentLimit < m then (none, c.advance) else exponentOnto fuel m c.advance
    | none => (some n, c)

/-- An exponent within the range of 32 bits. -/
def clampExponent (e : Int) : Int := max (-2147483648) (min 2147483647 e)

/-- Moves over the sign of an exponent; without one, the exponent is not negative. -/
def exponentSign (c : JsonCursor) : Bool × JsonCursor :=
  match c.peek? with
  | some '+' => (true, c.advance)
  | some '-' => (false, c.advance)
  | _ => (true, c)

/-- Reads an exponent from its mark on, and completes the number. -/
def exponent (negative : Bool) (digits : Nat) (e : Int) (c : JsonCursor) : Step Float :=
  let (up, c) := exponentSign c.advance
  match c.peek? with
  | none => c.failHere .endInValue
  | some _ =>
    match digit? c with
    | none => c.failNext .badNumber
    | some d =>
      match exponentOnto c.rest.length d c.advance with
      | (some n, c) => finish negative digits (clampExponent (if up then e + n else e - n)) c
      | (none, c) =>
        if digits ≠ 0 && up then c.failHere .numberTooLarge
        else
          let (_, c) := skipDigits c.rest.length c
          .ok (if negative then -0.0 else 0.0, c)

/-- Completes a number after its digits: with an exponent, if there is one. -/
def afterDigits (negative : Bool) (digits : Nat) (e : Int) (c : JsonCursor) : Step Float :=
  match c.peek? with
  | some 'e' | some 'E' => exponent negative digits e c
  | _ => finish negative digits e c

/-- Reads the digits after the point, from the point on, and completes the number. -/
def fraction (negative : Bool) (digits : Nat) (e : Int) (c : JsonCursor) : Step Float :=
  let c := c.advance
  let (n, count, c) := digitsOnto c.rest.length digits c
  match digit? c with
  | some _ =>
    let (_, c) := skipDigits c.rest.length c
    afterDigits negative n (e - count) c
  | none =>
    if count = 0 then c.failNext (if c.rest.isEmpty then .endInValue else .badNumber)
    else afterDigits negative n (e - count) c

/-- Completes a number whose digits do not fit into 64 bits. -/
def longInteger (negative : Bool) (digits : Nat) (c : JsonCursor) : Step Float :=
  let (count, c) := skipDigits c.rest.length c
  match c.peek? with
  | some '.' => fraction negative digits count c
  | _ => afterDigits negative digits count c

/-- Completes a number after the digits before the point. -/
def afterInteger (negative : Bool) (digits : Nat) (c : JsonCursor) : Step Float :=
  match c.peek? with
  | some '.' => fraction negative digits 0 c
  | some 'e' | some 'E' => exponent negative digits 0 c
  | _ =>
    let f := Binary.ofNat digits
    .ok (if negative then -f else f, c)

/-- Reads a number after its sign. -/
def number (negative : Bool) (c : JsonCursor) : Step Float :=
  match c.peek? with
  | none => c.failHere .endInValue
  | some _ =>
    match digit? c with
    | none => c.failNext .badNumber
    | some 0 =>
      let c := c.advance
      if (digit? c).isSome then c.failNext .badNumber else afterInteger negative 0 c
    | some d =>
      let (n, _, c) := digitsOnto c.rest.length d c.advance
      if (digit? c).isSome then longInteger negative n c else afterInteger negative n c

/-! ### Texts -/

/-- The value of a hexadecimal digit. -/
def hexValue? (c : Char) : Option Nat :=
  if c.isDigit then some (c.toNat - '0'.toNat)
  else if 'a' ≤ c ∧ c ≤ 'f' then some (c.toNat - 'a'.toNat + 10)
  else if 'A' ≤ c ∧ c ≤ 'F' then some (c.toNat - 'A'.toNat + 10)
  else none

/-- The bytes of some characters. -/
def byteLength (cs : List Char) : Nat := cs.foldl (fun n c => n + c.utf8Size) 0

/-- Reads four hexadecimal digits. -/
def hexEscape (c : JsonCursor) : Step Nat :=
  let failed : Step Nat :=
    if byteLength (c.rest.take 4) < 4 then
      (JsonCursor.skipBytes c.line c.column 4 c.rest).failHere .endInString
    else (JsonCursor.skipBytes c.line c.column 4 c.rest).failHere .badEscape
  match c.rest with
  | a :: b :: d :: e :: rest =>
    match hexValue? a, hexValue? b, hexValue? d, hexValue? e with
    | some a, some b, some d, some e =>
      .ok (((a * 16 + b) * 16 + d) * 16 + e, ⟨rest, c.line, c.column + 4⟩)
    | _, _, _, _ => failed
  | _ => failed

/-- Moves over one expected character of a second escape. -/
def pairPart (ch : Char) (c : JsonCursor) : Except JsonError JsonCursor :=
  match c.rest with
  | [] => c.failHere .endInString
  | d :: _ => if d = ch then .ok c.advance else c.failNext .shortEscape

/-- Reads the digits of an escaped code point, with a second escape if the first one is half of a
pair. -/
def codePoint (c : JsonCursor) : Except JsonError (Char × JsonCursor) := do
  let (n, c) ← hexEscape c
  if 0xDC00 ≤ n ∧ n ≤ 0xDFFF then c.failHere .loneSurrogate
  else if n < 0xD800 ∨ 0xDBFF < n then return (Char.ofNat n, c)
  else
    let c ← pairPart '\\' c
    let c ← pairPart 'u' c
    let (m, c) ← hexEscape c
    if m < 0xDC00 ∨ 0xDFFF < m then c.failHere .loneSurrogate
    else return (Char.ofNat (0x10000 + (n - 0xD800) * 0x400 + (m - 0xDC00)), c)

/-- The character of a short escape. -/
def shortEscape? : Char → Option Char
  | '"' => some '"'
  | '\\' => some '\\'
  | '/' => some '/'
  | 'b' => some '\x08'
  | 'f' => some '\x0c'
  | 'n' => some '\n'
  | 'r' => some '\r'
  | 't' => some '\t'
  | _ => none

/-- Reads a text after its first quote, onto the characters `done`, the last one first. -/
def textOnto : Nat → List Char → JsonCursor → Step String
  | 0, _, c => c.failHere .endInString
  | fuel + 1, done, c =>
    match c.rest with
    | [] => c.failHere .endInString
    | ch :: _ =>
      let after := c.advance
      if ch = '"' then .ok (String.ofList done.reverse, after)
      else if ch = '\\' then
        match after.rest with
        | [] => after.failHere .endInString
        | e :: _ =>
          if e = 'u' then
            match codePoint after.advance with
            | .ok (d, c) => textOnto fuel (d :: done) c
            | .error e => .error e
          else
            match shortEscape? e with
            | some d => textOnto fuel (d :: done) after.advance
            | none => after.failNext .badEscape
      else if ch.toNat < 32 then after.failHere .controlCharacter
      else textOnto fuel (ch :: done) after

/-- Reads a text after its first quote. -/
def text (c : JsonCursor) : Step String := textOnto (c.rest.length + 1) [] c

/-! ### Documents -/

/-- Moves over the colon after a key. -/
def colon (c : JsonCursor) : Except JsonError JsonCursor :=
  let c := c.skipBlanks
  match c.peek? with
  | some ':' => .ok c.advance
  | some _ => c.failNext .expectedColon
  | none => c.failNext .endInObject

/-- What stands between the elements of an array: the end (`none`), or the cursor at the next
element. -/
def nextElement (first : Bool) (c : JsonCursor) : Except JsonError (Option JsonCursor) :=
  let c := c.skipBlanks
  match c.peek? with
  | none => c.failNext .endInList
  | some ']' => .ok none
  | some ch =>
    if first then .ok (some c)
    else if ch = ',' then
      let c := c.advance.skipBlanks
      match c.peek? with
      | some ']' => c.failNext .trailingComma
      | some _ => .ok (some c)
      | none => c.failNext .endInValue
    else c.failNext .expectedCommaInList

/-- What stands between the members of an object: the end (`none`), or the cursor at the quote of
the next key. -/
def nextMember (first : Bool) (c : JsonCursor) : Except JsonError (Option JsonCursor) :=
  let c := c.skipBlanks
  match c.peek? with
  | none => c.failNext .endInObject
  | some '}' => .ok none
  | some ch =>
    if first then if ch = '"' then .ok (some c) else c.failNext .keyNotString
    else if ch = ',' then
      let c := c.advance.skipBlanks
      match c.peek? with
      | some '"' => .ok (some c)
      | some '}' => c.failNext .trailingComma
      | some _ => c.failNext .keyNotString
      | none => c.failNext .endInValue
    else c.failNext .expectedCommaInObject

mutual

/-- Reads a document in which arrays and objects may be nested `depth` deep. -/
def value : Nat → Nat → JsonCursor → Step JsonValue
  | 0, _, c => c.failNext .expectedValue
  | fuel + 1, depth, c =>
    let c := c.skipBlanks
    match c.peek? with
    | none => c.failNext .endInValue
    | some 'n' => (word ['u', 'l', 'l'] c.advance).map fun c => (.null, c)
    | some 't' => (word ['r', 'u', 'e'] c.advance).map fun c => (.bool true, c)
    | some 'f' => (word ['a', 'l', 's', 'e'] c.advance).map fun c => (.bool false, c)
    | some '-' => (number true c.advance).map fun r => (.number r.1, r.2)
    | some '"' => (text c.advance).map fun r => (.string r.1, r.2)
    | some '[' =>
      if depth = 0 then c.failNext .tooDeep
      else elements fuel (depth - 1) true #[] c.advance
    | some '{' =>
      if depth = 0 then c.failNext .tooDeep
      else members fuel (depth - 1) true .empty c.advance
    | some ch =>
      if ch.isDigit then (number false c).map fun r => (.number r.1, r.2)
      else c.failNext .expectedValue

/-- Reads the elements of an array onto those read before. -/
def elements : Nat → Nat → Bool → Array JsonValue → JsonCursor → Step JsonValue
  | 0, _, _, _, c => c.failNext .expectedValue
  | fuel + 1, depth, first, done, c =>
    match nextElement first c with
    | .error e => .error e
    | .ok none => .ok (.array done.toList, c.skipBlanks.advance)
    | .ok (some c) =>
      match value fuel depth c with
      | .error e => .error e
      | .ok (v, c) => elements fuel depth false (done.push v) c

/-- Reads the members of an object onto those read before. -/
def members : Nat → Nat → Bool → OrderedMap JsonValue → JsonCursor → Step JsonValue
  | 0, _, _, _, c => c.failNext .expectedValue
  | fuel + 1, depth, first, done, c =>
    match nextMember first c with
    | .error e => .error e
    | .ok none => .ok (.object done.toList, c.skipBlanks.advance)
    | .ok (some c) =>
      match text c.advance with
      | .error e => .error e
      | .ok (key, c) =>
        match colon c with
        | .error e => .error e
        | .ok c =>
          match value fuel depth c with
          | .error e => .error e
          | .ok (v, c) => members fuel depth false (done.insert key v) c

end

/-- Reads a whole text as one document. -/
def read (s : String) : Except JsonError JsonValue := do
  let c := JsonCursor.start s
  let (v, c) ← value (2 * c.rest.length + 2) maxDepth c
  let c := c.skipBlanks
  if c.rest.isEmpty then return v else c.failNext .trailingText

end ScriptLang.JsonReader
