import ScriptLang.Source.Lines

/-!
# Faults of patterns

Why a text is no regular expression, and how that is shown.

* `PatternFault` lists the causes and `PatternFault.message` their wording.
* `PatternError` is a fault with the stretch of the pattern that shows it, and for a repetition of
  something that may stand only once also the stretch of the first occurrence.
* `PatternError.render` quotes the pattern line by line and underlines the stretches. Lines are
  numbered if there is more than one; a stretch over several lines is described in words.
-/

namespace ScriptLang

/-- A stretch of a pattern, from one place up to another. -/
structure Stretch where
  start : Position
  stop : Position
  deriving DecidableEq, Repr, Inhabited

/-- Why a text is no regular expression. -/
inductive PatternFault where
  | classEscapeInvalid
  | classRangeInvalid
  | classRangeLiteral
  | classUnclosed
  | decimalInvalid
  | hexEmpty
  | hexInvalid
  | hexInvalidDigit
  | escapeUnfinished
  | escapeUnrecognized
  | flagDanglingNegation
  | flagDuplicate
  | flagRepeatedNegation
  | flagUnfinished
  | flagUnrecognized
  | groupNameDuplicate
  | groupNameEmpty
  | groupNameInvalid
  | groupNameUnfinished
  | groupUnclosed
  | groupUnopened
  | nestLimit (limit : Nat)
  | countInvalid
  | countEmpty
  | countUnclosed
  | repetitionMissing
  | wordBoundaryUnclosed
  | wordBoundaryUnrecognized
  | wordBoundaryUnfinished
  | unicodeClassInvalid
  | backreference
  | lookAround
  | unicodeNotAllowed
  | invalidUtf8
  | propertyUnknown
  | propertyValueUnknown
  deriving DecidableEq, Repr

/-- The wording of a fault. -/
def PatternFault.message : PatternFault → String
  | .classEscapeInvalid => "invalid escape sequence found in character class"
  | .classRangeInvalid => "invalid character class range, the start must be <= the end"
  | .classRangeLiteral => "invalid range boundary, must be a literal"
  | .classUnclosed => "unclosed character class"
  | .decimalInvalid => "decimal literal invalid"
  | .hexEmpty => "hexadecimal literal empty"
  | .hexInvalid => "hexadecimal literal is not a Unicode scalar value"
  | .hexInvalidDigit => "invalid hexadecimal digit"
  | .escapeUnfinished => "incomplete escape sequence, reached end of pattern prematurely"
  | .escapeUnrecognized => "unrecognized escape sequence"
  | .flagDanglingNegation => "dangling flag negation operator"
  | .flagDuplicate => "duplicate flag"
  | .flagRepeatedNegation => "flag negation operator repeated"
  | .flagUnfinished => "expected flag but got end of regex"
  | .flagUnrecognized => "unrecognized flag"
  | .groupNameDuplicate => "duplicate capture group name"
  | .groupNameEmpty => "empty capture group name"
  | .groupNameInvalid => "invalid capture group character"
  | .groupNameUnfinished => "unclosed capture group name"
  | .groupUnclosed => "unclosed group"
  | .groupUnopened => "unopened group"
  | .nestLimit n => s!"exceed the maximum number of nested parentheses/brackets ({n})"
  | .countInvalid => "invalid repetition count range, the start must be <= the end"
  | .countEmpty => "repetition quantifier expects a valid decimal"
  | .countUnclosed => "unclosed counted repetition"
  | .repetitionMissing => "repetition operator missing expression"
  | .wordBoundaryUnclosed =>
    "special word boundary assertion is either unclosed or contains an invalid character"
  | .wordBoundaryUnrecognized =>
    "unrecognized special word boundary assertion, valid choices are: "
      ++ "start, end, start-half or end-half"
  | .wordBoundaryUnfinished =>
    "found either the beginning of a special word boundary or a bounded repetition "
      ++ "on a \\b with an opening brace, but no closing brace"
  | .unicodeClassInvalid => "invalid Unicode character class"
  | .backreference => "backreferences are not supported"
  | .lookAround => "look-around, including look-ahead and look-behind, is not supported"
  | .unicodeNotAllowed => "Unicode not allowed here"
  | .invalidUtf8 => "pattern can match invalid UTF-8"
  | .propertyUnknown => "Unicode property not found"
  | .propertyValueUnknown => "Unicode property value not found"

/-- A fault with the stretches of the pattern that show it. -/
structure PatternError where
  fault : PatternFault
  extent : Stretch
  /-- Where the thing stands that may not be repeated. -/
  first : Option Stretch := none
  deriving DecidableEq, Repr

namespace Stretch

/-- Whether a stretch lies in one line. -/
def inOneLine (s : Stretch) : Bool := s.start.line == s.stop.line

/-- The order in which stretches are shown. -/
def before (s t : Stretch) : Bool :=
  s.start.offset < t.start.offset
    || (s.start.offset == t.start.offset && s.stop.offset ≤ t.stop.offset)

/-- What is said of a stretch over several lines. -/
def describe (s : Stretch) : String :=
  s!"on line {s.start.line} (column {s.start.column}) "
    ++ s!"through line {s.stop.line} (column {s.stop.column - 1})"

/-- The characters that underline stretches of one line, at least one caret for each. `column` is
the number of characters written before. -/
def carets : Nat → List Stretch → List Char
  | _, [] => []
  | column, s :: rest =>
    let gap := s.start.column - 1 - column
    let width := max 1 (s.stop.column - s.start.column)
    List.replicate gap ' ' ++ List.replicate width '^' ++ carets (column + gap + width) rest

end Stretch

namespace PatternError

/-- The stretches that a message shows, in order. -/
def stretches (e : PatternError) : List Stretch :=
  match e.first with
  | none => [e.extent]
  | some f => if f.before e.extent then [f, e.extent] else [e.extent, f]

/-- The lines of a pattern as they are quoted: without their terminators, and without an empty last
line. -/
def quotedLines (pattern : String) : List (List Char) :=
  let lines := Lines.split pattern.toList
  lines.dropLast.map Lines.dropReturn ++ (lines.getLast?.toList.filter (!·.isEmpty))

/-- The width of the numbers of the lines of a pattern. -/
def numberWidth (pattern : String) : Nat :=
  let count := (quotedLines pattern).length + if pattern.endsWith "\n" then 1 else 0
  if count ≤ 1 then 0 else (toString count).length

/-- What stands before a quoted line. -/
def lineHead (width number : Nat) : String :=
  if width = 0 then "    "
  else
    let digits := toString number
    "".pushn ' ' (width - digits.length) ++ digits ++ ": "

/-- A quoted line with the line that underlines its stretches, if it has any. -/
def quoteLine (width number : Nat) (line : List Char) (stretches : List Stretch) : String :=
  let here := stretches.filter fun s => s.inOneLine && s.start.line == number
  let under :=
    if here.isEmpty then ""
    else "".pushn ' ' (if width = 0 then 4 else width + 2)
      ++ String.ofList (Stretch.carets 0 here) ++ "\n"
  lineHead width number ++ String.ofList line ++ "\n" ++ under

/-- The whole message for a pattern. -/
def render (e : PatternError) (pattern : String) : String :=
  let width := numberWidth pattern
  let quoted := String.join <|
    (quotedLines pattern).mapIdx fun i line => quoteLine width (i + 1) line e.stretches
  let ending := "error: " ++ e.fault.message
  if pattern.contains '\n' then
    let divider := "".pushn '~' 79 ++ "\n"
    let wide := e.stretches.filter (!·.inOneLine)
    let remarks :=
      if wide.isEmpty then "" else "\n".intercalate (wide.map Stretch.describe) ++ "\n"
    "regex parse error:\n" ++ divider ++ quoted ++ divider ++ remarks ++ ending
  else "regex parse error:\n" ++ quoted ++ ending

end PatternError

end ScriptLang
