import ScriptLang.Diagnostic.Basic
import ScriptLang.Token.Basic

/-!
# Faults of grammar

What can be wrong with a list of tokens, with code, wording and advice of each fault in one place.
A `Clause` is what one rule of the grammar has to say when its token is missing.
-/

namespace ScriptLang

/-- Code and advice of one requirement of the grammar. -/
structure Clause where
  code : String
  advice : String
  deriving DecidableEq, Repr, Inhabited

/-- Why a list of tokens is no program. -/
inductive GrammarFault where
  /-- A token of a kind, and perhaps of a text, is missing. -/
  | expected (clause : Clause) (kind : TokenKind) (text : Option String) (got : Token)
  /-- One of some reserved words is missing. -/
  | expectedWord (clause : Clause) (words : List String) (got : Token)
  /-- A name is missing. -/
  | expectedName (clause : Clause) (got : Token)
  /-- The input ends where a statement should start. -/
  | endOfInput
  /-- A reserved word starts no statement. -/
  | strayWord (word : String)
  /-- A member is written with a word that only declares. -/
  | memberNeedsSet (word : String)
  /-- The target of a member write is no member. -/
  | notAMember
  /-- A match has no clause. -/
  | emptyMatch
  /-- Nothing follows the word that exports. -/
  | exportOfNothing
  /-- A statement that cannot be exported. -/
  | exportOfStatement (word : String)
  /-- No declaration follows the word that exports. -/
  | exportWithoutWord
  /-- Neither kind of destructuring pattern starts here. -/
  | noDestructure
  /-- A number token in a pattern is no number. -/
  | patternNumber (text : String)
  /-- The input ends inside a pattern. -/
  | patternEnd
  /-- A token that starts no pattern. -/
  | patternToken (got : Token)
  /-- A parameter follows the rest parameter after a comma. -/
  | restNotLast
  /-- A parameter without default follows one with a default. -/
  | defaultOrder
  /-- A comma between the parameters of an arrow function. -/
  | commaInArrow
  /-- Something follows the rest parameter. -/
  | afterRest
  /-- An operator that starts no expression. -/
  | strayOperator (symbol : String)
  /-- An operator with one operand that needs two. -/
  | notUnary (symbol : String)
  /-- A number token is no number. -/
  | badNumber (text : String)
  /-- A reserved word inside an expression. -/
  | wordInExpression (word : String)
  /-- The input ends where an expression should start. -/
  | endInExpression
  /-- A token that starts no expression. -/
  | tokenInExpression (text : String)
  /-- A token that cannot stand in a template. -/
  | tokenInTemplate (text : String)
  deriving DecidableEq, Repr, Inhabited

namespace GrammarFault

/-- The code of a fault. -/
def code : GrammarFault → String
  | .expected c .. | .expectedWord c .. | .expectedName c _ => c.code
  | .endOfInput => "SYN000"
  | .strayWord _ => "SYN005"
  | .memberNeedsSet _ => "SYN102"
  | .notAMember => "SYN103"
  | .emptyMatch => "SYN085A"
  | .exportOfNothing => "SYN078"
  | .exportOfStatement _ => "SYN079"
  | .exportWithoutWord => "SYN080"
  | .noDestructure => "SYN112"
  | .patternNumber _ => "SYN091"
  | .patternEnd => "SYN088A"
  | .patternToken _ => "SYN091"
  | .restNotLast => "SYN063"
  | .defaultOrder => "SYN_DEFAULT_ORDER"
  | .commaInArrow => "SYN135"
  | .afterRest => "SYN060"
  | .strayOperator _ => "SYN010"
  | .notUnary _ => "SYN039"
  | .badNumber _ => "SYN010"
  | .wordInExpression _ => "SYN010"
  | .endInExpression => "SYN010"
  | .tokenInExpression _ => "SYN010"
  | .tokenInTemplate _ => "SYN106"

/-- The message about a missing reserved word. -/
def wordMessage (words : List String) (got : Token) : String :=
  if got.kind ≠ .keyword then s!"Expected keyword but got {got.describe}."
  else
    match words with
    | [word] => s!"Expected '{word}' (keyword) but got {got.describe}."
    | _ =>
      let choice := String.intercalate ", " (words.map fun w => s!"'{w}'")
      s!"Expected one of {choice} but got {got.describe}."

/-- The message of a fault. -/
def message : GrammarFault → String
  | .expected _ kind text got =>
    let wanted := match text with
      | some t => s!"'{t}' ({kind.name})"
      | none => kind.name
    s!"Expected {wanted} but got {got.describe}."
  | .expectedWord _ words got => wordMessage words got
  | .expectedName _ got => s!"Expected an identifier but got {got.kind.name} '{got.value}'."
  | .endOfInput => "Unexpected end of input."
  | .strayWord word => s!"Unexpected keyword '{word}' at the start of a statement."
  | .memberNeedsSet word =>
    s!"The '{word}' keyword is for declarations. Use 'set' for direct member assignment."
  | .notAMember => "Invalid member assignment target."
  | .emptyMatch => "Match statement must have at least one 'case' or 'default' clause."
  | .exportOfNothing => "Unexpected end of input after 'export'."
  | .exportOfStatement word =>
    s!"Cannot export statement of type '{word}'. Expected a declaration."
  | .exportWithoutWord =>
    "Expected a declaration keyword (set, let, const, global, function) after 'export'."
  | .noDestructure =>
    "Expected an array or object pattern (e.g., [a, b] or \x7ba, b\x7d) for destructuring."
  | .patternNumber text => s!"Invalid number literal '{text}' in pattern."
  | .patternEnd => "Unexpected end of input while parsing pattern element."
  | .patternToken got =>
    s!"Unexpected token '{got.value}' ({got.kind.name}) in pattern. "
      ++ "Expected a literal, identifier, or array pattern."
  | .restNotLast => "Rest parameter must be the last parameter."
  | .defaultOrder =>
    "Parameter without default value cannot follow parameter with default value."
  | .commaInArrow =>
    "Comma-separated parameters are not supported in 'fn' syntax. "
      ++ "Use '->' to separate parameters from the body."
  | .afterRest => "No parameters allowed after a rest parameter."
  | .strayOperator symbol => s!"Unexpected operator '{symbol}' in expression."
  | .notUnary symbol => s!"Operator '{symbol}' cannot be used as a unary operator."
  | .badNumber text => s!"Invalid number literal '{text}'."
  | .wordInExpression word => s!"Unexpected keyword \"{word}\" in expression context."
  | .endInExpression => "Unexpected end of input in expression."
  | .tokenInExpression text => s!"Unexpected token in expression \"{text}\"."
  | .tokenInTemplate text => s!"Unexpected token '{text}' inside a template literal."

/-- The advice for a fault; empty when there is none. -/
def advice : GrammarFault → String
  | .expected c .. | .expectedWord c .. | .expectedName c _ => c.advice
  | .endOfInput => "Expected a statement or expression, but found end of file."
  | .strayWord _ =>
    "Expected a statement keyword (like 'set', 'if', 'function', 'call', 'show', etc.)."
  | .emptyMatch => "Add at least one 'case ... : ...' or 'default: ...' block."
  | .exportOfNothing => "Expected a variable or function declaration to export."
  | .exportOfStatement _ =>
    "Only 'set', 'let', 'const', 'global', or 'function' declarations can be exported."
  | .exportWithoutWord => "Only variable and function declarations can be exported."
  | .patternEnd => "A pattern element (literal, identifier, or array) is expected here."
  | .patternToken _ =>
    "Patterns can be simple values (like 10, \"hello\", true), identifiers (to bind values), "
      ++ "or array patterns (like [a, b])."
  | .commaInArrow =>
    "Write: fn x y -> expression end or use 'function' keyword for multi-param functions."
  | .strayOperator _ =>
    "'->' only separates 'fn' parameters from the body or names the result of a 'call' statement."
  | .notUnary _ => "Did you mean to provide a second argument?"
  | .endInExpression | .tokenInExpression _ =>
    "Expected a literal, identifier, array, object, or function."
  | _ => ""

/-- The fault as a located error. -/
def toDiagnostic (f : GrammarFault) (location : Location) : Diagnostic :=
  { category := .grammatical, code := f.code, message := f.message,
    location := location : Diagnostic }.withSuggestion f.advice

end GrammarFault

end ScriptLang
