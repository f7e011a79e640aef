/-!
# Reading JSON: cursor and faults

A `JsonCursor` is the rest of a text with the place where it begins: lines count from one, columns
count the bytes already read of a line. Faults are reported at the cursor, or one byte further for a
character that is only looked at.
-/

namespace ScriptLang

/-- Why a text is no JSON document. -/
inductive JsonFault where
  | endInList
  | endInObject
  | endInString
  | endInValue
  | expectedColon
  | expectedCommaInList
  | expectedCommaInObject
  | expectedWord
  | expectedValue
  | badEscape
  | badNumber
  | numberTooLarge
  | controlCharacter
  | keyNotString
  | loneSurrogate
  | trailingComma
  | trailingText
  | shortEscape
  | tooDeep
  deriving DecidableEq, Repr

/-- The wording of a fault. -/
def JsonFault.message : JsonFault → String
  | .endInList => "EOF while parsing a list"
  | .endInObject => "EOF while parsing an object"
  | .endInString => "EOF while parsing a string"
  | .endInValue => "EOF while parsing a value"
  | .expectedColon => "expected \x60:\x60"
  | .expectedCommaInList => "expected \x60,\x60 or \x60]\x60"
  | .expectedCommaInObject => "expected \x60,\x60 or \x60\x7d\x60"
  | .expectedWord => "expected ident"
  | .expectedValue => "expected value"
  | .badEscape => "invalid escape"
  | .badNumber => "invalid number"
  | .numberTooLarge => "number out of range"
  | .controlCharacter => "control character (\\u0000-\\u001F) found while parsing a string"
  | .keyNotString => "key must be a string"
  | .loneSurrogate => "lone leading surrogate in hex escape"
  | .trailingComma => "trailing comma"
  | .trailingText => "trailing characters"
  | .shortEscape => "unexpected end of hex escape"
  | .tooDeep => "recursion limit exceeded"

/-- A fault with the line and column where it shows. -/
structure JsonError where
  fault : JsonFault
  line : Nat
  column : Nat
  deriving DecidableEq, Repr

/-- The wording of a placed fault. -/
def JsonError.message (e : JsonError) : String :=
  s!"{e.fault.message} at line {e.line} column {e.column}"

/-- The rest of a text, and how much of it was read. -/
structure JsonCursor where
  rest : List Char
  /-- The current line, from one. -/
  line : Nat := 1
  /-- The number of bytes read of the current line. -/
  column : Nat := 0
  deriving Repr, Inhabited

namespace JsonCursor

/-- The cursor at the beginning of a text. -/
def start (s : String) : JsonCursor := { rest := s.toList }

/-- The place after one more character. -/
def placeAfter (c : JsonCursor) (ch : Char) : Nat × Nat :=
  if ch = '\n' then (c.line + 1, 0) else (c.line, c.column + ch.utf8Size)

/-- The cursor after the next character. -/
def advance (c : JsonCursor) : JsonCursor :=
  match c.rest with
  | [] => c
  | ch :: rest =>
    let (line, column) := c.placeAfter ch
    ⟨rest, line, column⟩

/-- The next character. -/
def peek? (c : JsonCursor) : Option Char := c.rest.head?

/-- A fault at the cursor. -/
def failHere {α : Type} (c : JsonCursor) (f : JsonFault) : Except JsonError α :=
  .error ⟨f, c.line, c.column⟩

/-- A fault at the first byte of the next character. -/
def failNext {α : Type} (c : JsonCursor) (f : JsonFault) : Except JsonError α :=
  match c.rest with
  | [] => .error ⟨f, c.line, c.column⟩
  | ch :: _ =>
    if ch = '\n' then .error ⟨f, c.line + 1, 0⟩ else .error ⟨f, c.line, c.column + 1⟩

/-- Moves over so many bytes. A character of which only some bytes are counted is left. -/
def skipBytes (line column : Nat) : Nat → List Char → JsonCursor
  | _, [] => ⟨[], line, column⟩
  | n, ch :: rest =>
    if ch.utf8Size ≤ n then
      if ch = '\n' then skipBytes (line + 1) 0 (n - ch.utf8Size) rest
      else skipBytes line (column + ch.utf8Size) (n - ch.utf8Size) rest
    else ⟨ch :: rest, line, column + n⟩

/-- Whether a character is one of the blanks between tokens. -/
def isBlank (c : Char) : Bool := c == ' ' || c == '\n' || c == '\t' || c == '\r'

/-- Moves over blanks. -/
def skipBlanksFrom (line column : Nat) : List Char → JsonCursor
  | [] => ⟨[], line, column⟩
  | ch :: rest =>
    if isBlank ch then
      if ch = '\n' then skipBlanksFrom (line + 1) 0 rest else skipBlanksFrom line (column + 1) rest
    else ⟨ch :: rest, line, column⟩

/-- The cursor after the blanks. -/
def skipBlanks (c : JsonCursor) : JsonCursor := skipBlanksFrom c.line c.column c.rest

end JsonCursor

end ScriptLang
