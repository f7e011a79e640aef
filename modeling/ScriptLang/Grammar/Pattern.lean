import ScriptLang.Grammar.Parser
import ScriptLang.Number.Decimal

/-!
# Patterns

The flat patterns of declarations (`Grammar.destructure`) and the nested patterns of cases
(`Grammar.pattern`). A pattern inside of another one is read by a call that nothing guards, so it is
read only if the stack holds the patterns around it.
-/

namespace ScriptLang.Grammar

open ScriptLang.Parser

/-- Names separated by commas; at least one, and at most `bound`. -/
def names (clause : Clause) : Nat → Parser (List String)
  | 0 => exhausted
  | bound + 1 => do
    let name ← expectName clause
    if ← eat .comma then return name.value :: (← names clause bound) else return [name.value]

/-- Names separated by commas up to a closing mark. -/
def namesUpTo (bound : Nat) (close : TokenKind) (clause : Clause) : Parser (List String) := do
  if ← look (·.check close) then return [] else names clause bound

/-- A flat pattern: names in square brackets or in braces. -/
def destructure (bound : Nat) : Parser Destructure := do
  let t ← current
  if t.kind = .leftBracket then
    let _ ← advance
    let found ← namesUpTo bound .rightBracket
      ⟨"SYN110", "Expected an identifier in destructuring pattern."⟩
    let _ ← expect .rightBracket
      ⟨"SYN111", "Expected a closing \"]\" for array destructuring pattern."⟩
    return .array found
  else if t.kind = .leftBrace then
    let _ ← advance
    let found ← namesUpTo bound .rightBrace
      ⟨"SYN116", "Expected an identifier for property in object destructuring."⟩
    let _ ← expect .rightBrace
      ⟨"SYN117", "Expected \"\x7d\" to close object destructuring pattern."⟩
    return .object found
  else fail .noDestructure t

/-- What a missing closing bracket of an outer array pattern has to say. -/
def outerClose : Clause :=
  ⟨"SYN088", "Expected a closing square bracket to end an array pattern."⟩

/-- What a missing closing bracket of an inner array pattern has to say. -/
def innerClose : Clause :=
  ⟨"SYN090", "Expected a closing square bracket for nested array pattern."⟩

mutual

/-- A pattern inside of `depth` others, the outermost of which begins at the token `start`; `close`
is for an array pattern that is not closed. -/
def patternWith (start : Nat) (close : Clause) : Nat → Nat → Parser Pattern
  | 0, _ => exhausted
  | bound + 1, depth => do
    enter start depth
    let t ← current
    match t.kind with
    | .leftBracket =>
      let _ ← advance
      let elements ←
        if ← look (·.check .rightBracket) then pure [] else patterns start bound (depth + 1)
      let _ ← expect .rightBracket close
      return .array elements
    | .number =>
      let _ ← advance
      match Decimal.read? t.value with
      | some x => return .literal (.number x)
      | none => fail (.patternNumber t.value) t
    | .string =>
      let _ ← advance
      return .literal (.string t.value)
    | .boolean =>
      let _ ← advance
      return .literal (.boolean (t.value == "true"))
    | .null =>
      let _ ← advance
      return .literal .null
    | .identifier =>
      let _ ← advance
      return .bind t.value
    | .eof => fail .patternEnd t
    | _ => fail (.patternToken t) t

/-- Patterns separated by commas; at least one. -/
def patterns (start : Nat) : Nat → Nat → Parser (List Pattern)
  | 0, _ => exhausted
  | bound + 1, depth => do
    let p ← patternWith start innerClose bound depth
    if ← eat .comma then return p :: (← patterns start bound depth) else return [p]

end

/-- The pattern of a case. -/
def pattern (bound : Nat) : Parser Pattern := do
  patternWith (← look (·.position)) outerClose bound 0

end ScriptLang.Grammar
