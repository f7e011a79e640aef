import ScriptLang.Grammar.Statement
import ScriptLang.Token.Lexer

/-!
# Programs

`Grammar.ofBound` ties the rules together: expressions and statements call each other, one step
deeper each time. `Program.ofTokens` reads a whole list of tokens as a program; the bound that it
takes lies above every depth that the tokens allow.
-/

namespace ScriptLang

/-- The grammar down to a depth. -/
def Grammar.ofBound : Nat → Grammar
  | 0 => ⟨Parser.exhausted, Parser.exhausted, 0⟩
  | n + 1 =>
    ⟨fun c => expressionWith (Grammar.ofBound n) c, fun c => statementWith (Grammar.ofBound n) c,
      n⟩

namespace Program

/-- Statements up to the end of the input. -/
def body (g : Grammar) : Nat → Parser (List Stmt)
  | 0 => Parser.exhausted
  | bound + 1 => do
    if ← Parser.look (·.atEnd) then return []
    else
      let s ← g.statement
      return s :: (← body g bound)

/-- A bound above the depth of everything that so many tokens can hold. -/
def depthBound (tokens : Nat) : Nat := 2 * tokens + 4

/-- The parser of a program. -/
def parser (g : Grammar) : Parser Program := do
  let t ← Parser.current
  let loc ← Parser.locate t
  let statements ← body g g.bound
  return ⟨statements, loc⟩

/-- The program of a list of tokens. -/
def parse (platform : Platform) (tokens : List Token) (file : String) :
    Except Stop (Program × Cursor) :=
  if platform.checked && Cursor.overflows tokens then .error .overflow
  else
    let c := Cursor.ofTokens platform tokens file
    (parser (Grammar.ofBound (depthBound c.tokens.size))).run c

section

variable {platform : Platform} {tokens : List Token} {file : String}

/-- A sum that overflows is found before anything is read. -/
theorem parse_of_overflows (h : (platform.checked && Cursor.overflows tokens) = true) :
    parse platform tokens file = .error .overflow := by
  rw [parse, if_pos h]

/-- Without that, the parser starts with the first token. -/
theorem parse_of_not_overflows (h : (platform.checked && Cursor.overflows tokens) = false) :
    parse platform tokens file =
      parser (Grammar.ofBound (depthBound (Cursor.ofTokens platform tokens file).tokens.size))
        (Cursor.ofTokens platform tokens file) := by
  rw [parse, if_neg (by simp [h])]
  rfl

theorem not_overflows_of_parse (h : parse platform tokens file ≠ .error .overflow) :
    (platform.checked && Cursor.overflows tokens) = false :=
  Bool.eq_false_iff.mpr fun hchecked => h (parse_of_overflows hchecked)

end

/-- The located error of a fault at a token. `source`, if known, is quoted. -/
def report (source : Option String) (f : GrammarFault) (t : Token) : Diagnostic :=
  let d := f.toDiagnostic t.location
  match source with
  | some text => d.withSource text
  | none => d

/-- What comes of a list of tokens. -/
inductive Parsed where
  | program (p : Program)
  | error (d : Diagnostic)
  /-- The sum that overflows is reported by the platform, and the parser is left. -/
  | panic
  /-- The process ends. -/
  | abort

/-- What comes of a list of tokens on a platform. -/
def parseOn (platform : Platform) (tokens : List Token) (file : String)
    (source : Option String) : Parsed :=
  match parse platform tokens file with
  | .ok (p, _) => .program p
  | .error (.fault f t _) => .error (report source f t)
  | .error .overflow => .panic
  -- The bound is above the depth of all tokens, so it is the stack that ends.
  | .error .outOfStack | .error .exhausted => .abort

/-- The program of a list of tokens, or the located error, on a platform that holds everything. -/
def ofTokens (tokens : List Token) (file : String) (source : Option String) :
    Except Diagnostic Program :=
  match parseOn .ample tokens file source with
  | .program p => .ok p
  | .error d => .error d
  | .panic | .abort => .error (GrammarFault.endOfInput.toDiagnostic (.synthetic file))

theorem ofTokens_eq_ok_iff {tokens : List Token} {file : String} {source : Option String}
    {p : Program} : ofTokens tokens file source = .ok p ↔
      ∃ c, parse .ample tokens file = .ok (p, c) := by
  unfold ofTokens parseOn
  constructor
  · intro h
    split at h
    · rename_i hp
      split at hp <;> cases hp
      cases h
      exact ⟨_, ‹_›⟩
    all_goals cases h
  · rintro ⟨c, hc⟩
    rw [hc]

/-- The program of a text, or the located error with the source line. -/
def ofSource (source file : String) : Except Diagnostic Program :=
  match Lexer.tokenize source file with
  | .error d => .error (d.ensureSource source)
  | .ok tokens => ofTokens tokens file (some source)

end Program

end ScriptLang
