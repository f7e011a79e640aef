import ScriptLang.Source.Span

/-!
# Tokens

The words of the language: a kind, a text, and the place where the token stands.

* `Token.keywords` lists the reserved words; `true`, `false` and `null` are not among them but have
  kinds of their own.
* `TokenKind.name` is the word for a kind in error messages.
-/

namespace ScriptLang

/-- The kinds of tokens. -/
inductive TokenKind where
  | identifier
  | keyword
  | number
  | string
  | boolean
  | null
  | operator
  | leftParen
  | rightParen
  | leftBracket
  | rightBracket
  | leftBrace
  | rightBrace
  | comma
  | colon
  /-- Three dots. -/
  | spread
  /-- Two dots. -/
  | range
  | backtick
  /-- The text of a template between its delimiters, escapes decoded. -/
  | fragment
  /-- The opening of an interpolation. -/
  | interpolationStart
  /-- The brace that closes an interpolation. -/
  | interpolationEnd
  /-- The end of the input. -/
  | eof
  deriving DecidableEq, Repr, Inhabited

namespace TokenKind

/-- All kinds with their names in token listings. -/
def table : List (TokenKind × String) :=
  [(.identifier, "Identifier"), (.keyword, "Keyword"), (.number, "Number"), (.string, "String"),
   (.boolean, "Boolean"), (.null, "Null"), (.operator, "Operator"), (.leftParen, "LParen"),
   (.rightParen, "RParen"), (.leftBracket, "LBracket"), (.rightBracket, "RBracket"),
   (.leftBrace, "LBrace"), (.rightBrace, "RBrace"), (.comma, "Comma"), (.colon, "Colon"),
   (.spread, "Spread"), (.range, "Range"), (.backtick, "Backtick"),
   (.fragment, "StringFragment"), (.interpolationStart, "InterpolationStart"),
   (.interpolationEnd, "InterpolationEnd"), (.eof, "Eof")]

/-- The name of a kind in token listings. -/
def listingName (k : TokenKind) : String := ((table.find? (·.1 == k)).map (·.2)).getD ""

/-- The kind of a name in token listings. -/
def ofListingName? (name : String) : Option TokenKind := (table.find? (·.2 == name)).map (·.1)

/-- The name of a kind in error messages. -/
def name (k : TokenKind) : String := if k = .eof then "EOF" else k.listingName

/-- Every kind is found again under its listing name. -/
theorem ofListingName?_listingName (k : TokenKind) : ofListingName? k.listingName = some k := by
  cases k <;> decide

end TokenKind

/-- A token: kind, text and place. -/
structure Token where
  kind : TokenKind
  /-- The text as written; for strings and template fragments the decoded text. -/
  value : String
  span : Span
  line : UInt32
  column : UInt32
  /-- The file that the token stands in. -/
  file : String
  deriving DecidableEq, Repr, Inhabited

namespace Token

/-- The reserved words. -/
def keywords : List String :=
  ["set", "let", "const", "global", "if", "else", "while", "for", "in", "match", "case", "default",
   "break", "continue", "function", "fn", "call", "return", "try", "catch", "throw", "import",
   "export", "from", "as", "show", "end", "guard", "loop", "destructure", "when", "not", "and",
   "or", "then"]

/-- Whether a word is reserved. -/
def isReserved (word : String) : Bool := keywords.contains word

/-- The kind of a word. -/
def wordKind (word : String) : TokenKind :=
  if word == "true" || word == "false" then .boolean
  else if word == "null" then .null
  else if isReserved word then .keyword
  else .identifier

/-- Whether a token has a kind and a text. -/
def is (t : Token) (kind : TokenKind) (value : String) : Bool := t.kind == kind && t.value == value

/-- Whether a token is a certain reserved word. -/
def isKeyword (t : Token) (word : String) : Bool := t.is .keyword word

/-- Whether a token is a certain operator. -/
def isOperator (t : Token) (symbol : String) : Bool := t.is .operator symbol

/-- The place of a token. -/
def location (t : Token) : Location := ⟨t.file, t.line.toNat, t.column.toNat, t.span⟩

/-- How a token is named in error messages: its text and kind, or the kind alone. -/
def describe (t : Token) : String :=
  if t.value.isEmpty then t.kind.name else s!"'{t.value}' ({t.kind.name})"

end Token

end ScriptLang
