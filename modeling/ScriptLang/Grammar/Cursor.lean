import ScriptLang.Token.Basic

/-!
# Cursors

A cursor is a place in a list of tokens that always ends with an `eof` token.

* `Cursor.ofTokens` adds the `eof` token that a list lacks, at the end of its last token. Columns
  have 32 bits: `Cursor.overflows` tells when that of the added token does not fit.
* A `Platform` is what the parser runs on. Most of its calls are guarded such that the stack grows
  with them. A few are not, and of these only so many fit, one inside the other.
* `Cursor.peek` looks ahead and sees the last token for ever; `Cursor.advance` never moves past an
  `eof` token, also not past one in the middle.
-/

namespace ScriptLang

/-- What the parser is built for and runs on. -/
structure Platform where
  /-- Whether sums are checked to fit into 32 bits. If not, they wrap around. -/
  checked : Bool
  /-- Whether the stack holds this many calls inside of the one that is made at a token, if nothing
  guards them. -/
  fits : Nat → Nat → Bool
  deriving Inhabited

/-- A platform without checks on which the stack holds everything. -/
def Platform.ample : Platform := ⟨false, fun _ _ => true⟩

/-- A place in a list of tokens. -/
structure Cursor where
  /-- What the parser that moves the cursor runs on. -/
  platform : Platform
  /-- All tokens. -/
  tokens : Array Token
  /-- The last token. -/
  last : Token
  /-- The number of tokens before the cursor. -/
  position : Nat
  deriving Inhabited

namespace Cursor

/-- The `eof` token after a token. Its column wraps around. -/
def eofAfter (t : Token) : Token :=
  ⟨.eof, "", .point t.span.stop, t.line, t.column + .ofNat t.value.length, t.file⟩

/-- The `eof` token of an empty list. -/
def eofAlone (file : String) : Token := ⟨.eof, "", .nowhere, 1, 1, file⟩

/-- The tokens of a list with an `eof` token at the end, and that token. -/
def close (tokens : List Token) (file : String) : List Token × Token :=
  match tokens.getLast? with
  | none => ([eofAlone file], eofAlone file)
  | some t => if t.kind = .eof then (tokens, t) else (tokens ++ [eofAfter t], eofAfter t)

/-- Whether a list lacks an `eof` token and the column of the one that is added does not fit. -/
def overflows (tokens : List Token) : Bool :=
  match tokens.getLast? with
  | none => false
  | some t =>
    t.kind != .eof &&
      UInt32.size ≤ t.column.toNat + (UInt32.ofNat t.value.length).toNat

/-- The cursor before the first token of a list. -/
def ofTokens (platform : Platform) (tokens : List Token) (file : String) : Cursor :=
  let (tokens, last) := close tokens file
  ⟨platform, tokens.toArray, last, 0⟩

/-- The token `offset` places ahead, or the last one. -/
def peek (c : Cursor) (offset : Nat) : Token := c.tokens.getD (c.position + offset) c.last

/-- The token at the cursor. -/
def current (c : Cursor) : Token := c.peek 0

/-- The token before the cursor. -/
def previous? (c : Cursor) : Option Token :=
  match c.position with
  | 0 => none
  | i + 1 => c.tokens[i]?

/-- Whether the cursor stands on an `eof` token. -/
def atEnd (c : Cursor) : Bool := c.current.kind == .eof

/-- Whether the current token has a kind. -/
def check (c : Cursor) (kind : TokenKind) : Bool := c.current.kind == kind

/-- Whether the current token is a certain reserved word. -/
def checkKeyword (c : Cursor) (word : String) : Bool := c.current.isKeyword word

/-- Whether the current token is a certain operator. -/
def checkOperator (c : Cursor) (symbol : String) : Bool := c.current.isOperator symbol

/-- The reserved word at the cursor. -/
def keyword? (c : Cursor) : Option String :=
  if c.current.kind = .keyword then some c.current.value else none

/-- Whether the current token starts exactly where the previous one ends. -/
def adjacent (c : Cursor) : Bool :=
  match c.previous? with
  | some t => t.span.adjacentTo c.current.span
  | none => false

/-- The cursor after the current token, if that is no `eof` token. -/
def advance (c : Cursor) : Cursor := if c.atEnd then c else { c with position := c.position + 1 }

/-- The number of tokens from the cursor on. -/
def remaining (c : Cursor) : Nat := c.tokens.size - c.position

@[simp] theorem advance_tokens (c : Cursor) : c.advance.tokens = c.tokens := by
  unfold advance; split <;> rfl

@[simp] theorem advance_last (c : Cursor) : c.advance.last = c.last := by
  unfold advance; split <;> rfl

@[simp] theorem advance_platform (c : Cursor) : c.advance.platform = c.platform := by
  unfold advance; split <;> rfl

/-- Advancing never goes back. -/
theorem position_le_advance (c : Cursor) : c.position ≤ c.advance.position := by
  unfold advance; split <;> simp

/-- At an `eof` token the cursor stays. -/
theorem advance_of_atEnd {c : Cursor} (h : c.atEnd = true) : c.advance = c := by
  simp [advance, h]

end Cursor

end ScriptLang
