import ScriptLang.Diagnostic.Basic
import ScriptLang.Token.Basic

/-!
# From text to tokens

The lexer walks over the characters of a text and keeps, besides what is left of them, its place and
its relation to template literals.

* Outside templates `skipTrivia` drops blanks and comments, and the longest token is taken:
  `wordLength`, `numberLength` and `operatorLength` say how long.
* A string literal is read by `stringBody`, the text of a template by `fragmentBody`; each decodes
  its own escapes.
* Templates are followed by a machine with four modes (`TemplateMode`) and one depth counter, so a
  template inside an interpolation ends the outer template early.
* `LexicalFault` is what can be wrong with a text before it is a list of tokens, with code, wording
  and advice of each fault in one place.
* `Lexer.next` yields one token; a failing call may be repeated. `Lexer.tokenize` reads a whole text
  and ends it with an `eof` token.
-/

namespace ScriptLang

/-! ### Lexical faults -/

/-- Why a text cannot be cut into tokens. -/
inductive LexicalFault where
  /-- A character that starts no token. -/
  | unknownCharacter (c : Char)
  /-- A line feed inside a string literal. -/
  | newlineInString
  /-- The text ends inside a string literal. -/
  | unterminatedString
  /-- The text ends after a backslash in a string literal. -/
  | unterminatedEscape
  /-- A backslash in a string literal before a character that it does not escape. -/
  | unknownEscape (c : Char)
  /-- The text ends after a backslash in a template. -/
  | unterminatedTemplateEscape
  /-- A backslash in a template before a character that it does not escape. -/
  | unknownTemplateEscape (c : Char)
  deriving DecidableEq, Repr, Inhabited

namespace LexicalFault

/-- The code of a fault. -/
def code : LexicalFault → String
  | .unknownCharacter _ => "LEX007"
  | .newlineInString => "LEX004"
  | .unterminatedString => "LEX005"
  | .unterminatedEscape => "LEX005"
  | .unknownEscape _ => "LEX003"
  | .unterminatedTemplateEscape => "LEX004"
  | .unknownTemplateEscape _ => "LEX005"

/-- The message of a fault. -/
def message : LexicalFault → String
  | .unknownCharacter c => s!"Unrecognized symbol or character: '{c}'."
  | .newlineInString => "Unterminated string literal. Newline encountered."
  | .unterminatedString => "Unterminated string literal."
  | .unterminatedEscape => "Unterminated escape sequence at end of file."
  | .unknownEscape c => s!"Invalid escape sequence: \\{c}"
  | .unterminatedTemplateEscape => "Unterminated escape sequence in template fragment."
  | .unknownTemplateEscape c => s!"Unrecognized escape sequence in template: '\\{c}'."

/-- The advice for a fault; empty when there is none. -/
def advice : LexicalFault → String
  | .unknownCharacter c =>
    s!"The symbol or character '{c}' is not recognized. "
      ++ "Check for typos or unsupported operators."
  | .newlineInString =>
    "String literals must be closed on the same line or use '\\n' for a newline character."
  | .unterminatedString => "A string starting with \" was not properly closed."
  | .unterminatedEscape => ""
  | .unknownEscape _ => ""
  | .unterminatedTemplateEscape => "Complete the escape sequence or close the template literal."
  | .unknownTemplateEscape _ =>
    "Use valid escape sequences like '\\n', '\\t', '\\\\', '\\`', '\\$'."

/-- The fault as a located error. -/
def toDiagnostic (f : LexicalFault) (location : Location) : Diagnostic :=
  { category := .lexical, code := f.code, message := f.message, location := location : Diagnostic
    }.withSuggestion f.advice

end LexicalFault

/-! ### The lexer -/

/-- Where the lexer stands relative to template literals. -/
inductive TemplateMode where
  /-- In ordinary code. -/
  | code
  /-- After the backtick that opens a template, or after a part of its text. -/
  | fragment
  /-- Inside an interpolation. -/
  | interpolation
  /-- After the brace that closes an interpolation. -/
  | afterInterpolation
  deriving DecidableEq, Repr, Inhabited

/-- The state of the lexer: what is left of the text, its place, and the templates it is in. -/
structure Lexer where
  /-- The file that the text is from. -/
  file : String
  /-- The characters that are left. -/
  rest : List Char
  /-- The place of the first of them. -/
  position : Position
  /-- The relation to template literals. -/
  mode : TemplateMode
  /-- The number of open templates. -/
  depth : Nat
  deriving Inhabited

/-- A fault and the place of the character that shows it, with that character's width in bytes. -/
structure LexicalError where
  fault : LexicalFault
  position : Position
  width : Nat
  deriving Inhabited

namespace LexicalError

/-- A fault shown by the first of the characters `rest`, or by the end of the text. -/
def shownBy (fault : LexicalFault) (position : Position) (rest : List Char) : LexicalError :=
  ⟨fault, position, match rest with | [] => 1 | c :: _ => c.utf8Size⟩

/-- The located error, with the source line. -/
def toDiagnostic (e : LexicalError) (file source : String) : Diagnostic :=
  let span := Span.ofRange e.position.offset (e.position.offset + e.width)
  let line := UInt32.ofNatClamp e.position.line
  let column := UInt32.ofNatClamp e.position.column
  (e.fault.toDiagnostic ⟨file, line.toNat, column.toNat, span⟩).withSource source

end LexicalError

namespace Lexer

/-- The lexer before the first character of a text. -/
def start (source file : String) : Lexer := ⟨file, source.toList, .start, .code, 0⟩

/-! ### Classes of characters -/

/-- The blanks between tokens. -/
def isSpace (c : Char) : Bool := c == ' ' || c == '\t' || c == '\r' || c == '\n'

/-- The characters that start a word. -/
def isWordStart (c : Char) : Bool := c.isAlpha || c == '_'

/-- The characters that continue a word. -/
def isWordRest (c : Char) : Bool := c.isAlphanum || c == '_'

/-! ### Blanks and comments -/

/-- What `skipTrivia` is inside of. -/
inductive Trivia where
  /-- Nothing. -/
  | none
  /-- A comment that ends with the line. -/
  | line
  /-- A comment that ends with its closing mark. -/
  | block
  deriving DecidableEq

/-- Drops blanks and comments. A block comment that is not closed runs to the end. -/
def skipTrivia : Trivia → Position → List Char → Position × List Char
  | .none, p, '/' :: '/' :: cs => skipTrivia .line ((p.advance '/').advance '/') cs
  | .none, p, '/' :: '*' :: cs => skipTrivia .block ((p.advance '/').advance '*') cs
  | .none, p, c :: cs => if isSpace c then skipTrivia .none (p.advance c) cs else (p, c :: cs)
  | .line, p, c :: cs =>
    if c == '\n' then skipTrivia .none (p.advance c) cs else skipTrivia .line (p.advance c) cs
  | .block, p, '*' :: '/' :: cs => skipTrivia .none ((p.advance '*').advance '/') cs
  | .block, p, c :: cs => skipTrivia .block (p.advance c) cs
  | _, p, [] => (p, [])

/-! ### The length of the next token -/

/-- The length of the word at the front; zero if there is none. -/
def wordLength : List Char → Nat
  | [] => 0
  | c :: cs => if isWordStart c then 1 + (cs.takeWhile isWordRest).length else 0

/-- The number of digits at the front. -/
def digitsLength (cs : List Char) : Nat := (cs.takeWhile Char.isDigit).length

/-- The length of a fractional part at the front: a point and at least one digit. -/
def fractionLength : List Char → Nat
  | '.' :: cs => match digitsLength cs with | 0 => 0 | n => n + 1
  | _ => 0

/-- The length of an exponent at the front: a mark, perhaps a sign, and at least one digit. -/
def exponentLength : List Char → Nat
  | c :: cs =>
    if c == 'e' || c == 'E' then
      match cs with
      | s :: cs' =>
        if s == '+' || s == '-' then match digitsLength cs' with | 0 => 0 | n => n + 2
        else match digitsLength cs with | 0 => 0 | n => n + 1
      | [] => 0
    else 0
  | [] => 0

/-- The length of the number at the front; zero if there is none. -/
def numberLength (cs : List Char) : Nat :=
  match digitsLength cs with
  | 0 => 0
  | n =>
    let f := fractionLength (cs.drop n)
    n + f + exponentLength (cs.drop (n + f))

/-- The marks with their kinds. Of two marks that both stand at the front, the longer one comes
first. -/
def marks : List (List Char × TokenKind) :=
  [(['.', '.', '.'], .spread), (['=', '=', '='], .operator), (['!', '=', '='], .operator),
   (['.', '.'], .range), (['?', '.'], .operator), (['=', '='], .operator),
   (['!', '='], .operator), (['>', '='], .operator), (['<', '='], .operator),
   (['&', '&'], .operator), (['|', '|'], .operator), (['-', '>'], .operator),
   (['?', '?'], .operator), (['|', '>'], .operator), (['.'], .operator), (['+'], .operator),
   (['-'], .operator), (['*'], .operator), (['/'], .operator), (['%'], .operator),
   (['>'], .operator), (['<'], .operator), (['='], .operator), (['!'], .operator),
   (['('], .leftParen), ([')'], .rightParen), (['['], .leftBracket), ([']'], .rightBracket),
   (['{'], .leftBrace), (['}'], .rightBrace), ([','], .comma), ([':'], .colon),
   (['\x60'], .backtick)]

/-- The longest mark at the front. -/
def mark? (cs : List Char) : Option (List Char × TokenKind) := marks.find? (·.1.isPrefixOf cs)

/-! ### String literals and template text -/

/-- The character that an escape stands for in a string literal. -/
def stringEscape? : Char → Option Char
  | 'n' => some '\n'
  | 't' => some '\t'
  | 'r' => some '\r'
  | '\\' => some '\\'
  | '"' => some '"'
  | _ => none

/-- The character that an escape stands for in a template. -/
def templateEscape? : Char → Option Char
  | 'n' => some '\n'
  | 't' => some '\t'
  | 'r' => some '\r'
  | '\\' => some '\\'
  | '\x60' => some '\x60'
  | '$' => some '$'
  | '{' => some '{'
  | _ => none

/-- Reads a string literal after its opening quote: the decoded characters, appended to `acc` in
reverse, the place after the closing quote, and what follows. -/
def stringBody (acc : List Char) (p : Position) :
    List Char → Except LexicalError (List Char × Position × List Char)
  | [] => .error (.shownBy .unterminatedString p [])
  | '"' :: cs => .ok (acc.reverse, p.advance '"', cs)
  | '\n' :: cs => .error (.shownBy .newlineInString p ('\n' :: cs))
  | '\\' :: [] => .error (.shownBy .unterminatedEscape (p.advance '\\') [])
  | '\\' :: c :: cs =>
    match stringEscape? c with
    | some d => stringBody (d :: acc) ((p.advance '\\').advance c) cs
    | none => .error (.shownBy (.unknownEscape c) (p.advance '\\') (c :: cs))
  | c :: cs => stringBody (c :: acc) (p.advance c) cs

/-- Reads the text of a template up to a backtick, an interpolation or the end. -/
def fragmentBody (acc : List Char) (p : Position) :
    List Char → Except LexicalError (List Char × Position × List Char)
  | [] => .ok (acc.reverse, p, [])
  | '\x60' :: cs => .ok (acc.reverse, p, '\x60' :: cs)
  | '$' :: '{' :: cs => .ok (acc.reverse, p, '$' :: '{' :: cs)
  | '\\' :: [] => .error (.shownBy .unterminatedTemplateEscape (p.advance '\\') [])
  | '\\' :: c :: cs =>
    match templateEscape? c with
    | some d => fragmentBody (d :: acc) ((p.advance '\\').advance c) cs
    | none => .error (.shownBy (.unknownTemplateEscape c) (p.advance '\\') (c :: cs))
  | c :: cs => fragmentBody (c :: acc) (p.advance c) cs

/-! ### One token -/

/-- The token of a kind and text between two places of a file. The offsets are clamped to what a
span can hold; line and column are clamped to 32 bits. -/
def tokenBetween (file : String) (kind : TokenKind) (value : String) (a b : Position) : Token :=
  ⟨kind, value, Span.ofRange a.offset b.offset, .ofNatClamp a.line, .ofNatClamp a.column, file⟩

/-- The token made of the first `n` characters, whose kind `kind` tells from its text, and the lexer
after it. -/
def take (l : Lexer) (kind : String → TokenKind) (n : Nat) : Token × Lexer :=
  let text := l.rest.take n
  let value := String.ofList text
  let p := l.position.advanceAll text
  (tokenBetween l.file (kind value) value l.position p,
    { l with rest := l.rest.drop n, position := p })

/-- How a mark changes the relation to templates, and the kind that it gets: a backtick opens a
template, and inside an interpolation a closing brace ends it. -/
def onMark (mode : TemplateMode) (depth : Nat) (kind : TokenKind) :
    TokenKind × TemplateMode × Nat :=
  if kind = .backtick then (.backtick, .fragment, depth + 1)
  else if kind = .rightBrace ∧ mode = .interpolation then
    (.interpolationEnd, .afterInterpolation, depth)
  else (kind, mode, depth)

/-- The next token of ordinary code. A character that starts no token leaves the lexer where it was;
a broken string literal leaves it after the opening quote. -/
def nextCode (l : Lexer) : Except LexicalError (Option Token) × Lexer :=
  let (p, rest) := skipTrivia .none l.position l.rest
  let here : Lexer := { l with rest := rest, position := p }
  match rest with
  | [] => (.ok none, here)
  | '"' :: cs =>
    let q := p.advance '"'
    match stringBody [] q cs with
    | .ok (value, stop, rest) =>
      (.ok (some (tokenBetween l.file .string (String.ofList value) p stop)),
        { l with rest := rest, position := stop })
    | .error e => (.error e, { l with rest := cs, position := q })
  | c :: cs =>
    match wordLength (c :: cs), numberLength (c :: cs) with
    | 0, 0 =>
      match mark? (c :: cs) with
      | none => (.error (.shownBy (.unknownCharacter c) p (c :: cs)), l)
      | some (text, kind) =>
        let (kind, mode, depth) := onMark l.mode l.depth kind
        let (token, after) := here.take (fun _ => kind) text.length
        (.ok (some token), { after with mode := mode, depth := depth })
    | 0, n =>
      let (token, after) := here.take (fun _ => .number) n
      (.ok (some token), after)
    | n, _ =>
      let (token, after) := here.take Token.wordKind n
      (.ok (some token), after)

/-- The next token inside a template, outside its interpolations. -/
def nextTemplate (l : Lexer) : Except LexicalError (Option Token) × Lexer :=
  match l.rest with
  | [] => (.ok none, l)
  | '\x60' :: _ =>
    let (token, after) := l.take (fun _ => .backtick) 1
    (.ok (some token), { after with mode := .code, depth := l.depth - 1 })
  | '$' :: '{' :: _ =>
    let (token, after) := l.take (fun _ => .interpolationStart) 2
    (.ok (some token), { after with mode := .interpolation })
  | cs =>
    match fragmentBody [] l.position cs with
    | .ok (value, stop, rest) =>
      (.ok (some (tokenBetween l.file .fragment (String.ofList value) l.position stop)),
        { l with rest := rest, position := stop })
    | .error e => (.error e, l)

/-- The next token, or none at the end of the text, and the lexer after the call. -/
def next (l : Lexer) : Except LexicalError (Option Token) × Lexer :=
  match l.mode with
  | .fragment | .afterInterpolation => l.nextTemplate
  | .code | .interpolation => l.nextCode

/-- Tokens up to the end of the text; `fuel` bounds their number. -/
def run : Nat → Lexer → List Token → Except LexicalError (List Token × Lexer)
  | 0, l, acc => .ok (acc.reverse, l)
  | fuel + 1, l, acc =>
    match l.next with
    | (.error e, _) => .error e
    | (.ok none, l) => .ok (acc.reverse, l)
    | (.ok (some t), l) => run fuel l (t :: acc)

/-- The tokens of a file, ended by an `eof` token. Every token takes at least one character, so the
number of characters bounds the number of calls. -/
def tokens (source file : String) : Except LexicalError (List Token) :=
  let cs := source.toList
  match run (cs.length + 1) (start source file) [] with
  | .error e => .error e
  | .ok (ts, _) =>
    let stop := Position.start.advanceAll cs
    .ok (ts ++ [tokenBetween file .eof "" stop stop])

/-- The tokens of a file, or the located error. -/
def tokenize (source file : String) : Except Diagnostic (List Token) :=
  (tokens source file).mapError (·.toDiagnostic file source)

end Lexer

end ScriptLang
