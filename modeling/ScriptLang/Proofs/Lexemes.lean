import ScriptLang.Token.Lexer

/-!
# What one call of the lexer reads

A call of `Lexer.next` drops a gap and reads a lexeme. This module says which gaps there are, what a
token says of its lexeme, and that each call reads such a pair.

* `IsGap` describes the gaps between tokens: blanks and comments. Only in the gap at the end of a
  text may the last comment be left open. What follows a gap is `Lexer.Settled`.
* `unescape` decodes the text of a literal; `Token.Spells` holds of a token and its lexeme.
* `TokenKind.textAfter` says, from the kinds of the tokens alone, where the text of a template
  follows. There no gap is dropped.
* `Lexer.Scans` says which gap and which lexeme are read in front of a text, as what token and with
  what effect on the templates; `Lexer.CodeLexeme` has the lexemes of ordinary code. Places do not
  occur in it.
* `Lexer.Yields` is one call that yields a token: what it scans, and where. `Lexer.next_yields` and,
  for the call at the end, `Lexer.next_ends` are the main statements.
-/

namespace ScriptLang

/-! ### Gaps -/

/-- Blanks and comments. A line comment ends with its line feed, a block comment with the first
closing mark after it was opened; at the end of a text a comment may be left open. -/
inductive IsGap (atEnd : Bool) : List Char → Prop
  | nil : IsGap atEnd []
  | blank {c : Char} {cs : List Char} : Lexer.isSpace c = true → IsGap atEnd cs →
      IsGap atEnd (c :: cs)
  | line {body cs : List Char} : '\n' ∉ body → IsGap atEnd cs →
      IsGap atEnd ('/' :: '/' :: (body ++ '\n' :: cs))
  | block {body cs : List Char} : ¬ ['*', '/'] <:+: body → IsGap atEnd cs →
      IsGap atEnd ('/' :: '*' :: (body ++ '*' :: '/' :: cs))
  | openLine {body : List Char} : atEnd = true → '\n' ∉ body → IsGap atEnd ('/' :: '/' :: body)
  | openBlock {body : List Char} : atEnd = true → ¬ ['*', '/'] <:+: body →
      IsGap atEnd ('/' :: '*' :: body)

namespace Lexer

/-- What `skipTrivia` drops when it starts inside of `t`: a gap, or the rest of a comment and then a
gap, or the rest of a comment that is left open. -/
def Skips (atEnd : Bool) : Trivia → List Char → Prop
  | .none, gap => IsGap atEnd gap
  | .line, gap =>
    (∃ body cs, gap = body ++ '\n' :: cs ∧ '\n' ∉ body ∧ IsGap atEnd cs) ∨
      (atEnd = true ∧ '\n' ∉ gap)
  | .block, gap =>
    (∃ body cs, gap = body ++ '*' :: '/' :: cs ∧ ¬ ['*', '/'] <:+: body ∧ IsGap atEnd cs) ∨
      (atEnd = true ∧ ¬ ['*', '/'] <:+: gap)

variable {atEnd : Bool} {gap : List Char} {c : Char}

theorem Skips.openLine (h : Skips atEnd .line gap) : IsGap atEnd ('/' :: '/' :: gap) := by
  obtain ⟨body, cs, rfl, hb, hg⟩ | ⟨he, hb⟩ := h
  · exact .line hb hg
  · exact .openLine he hb

theorem Skips.openBlock (h : Skips atEnd .block gap) : IsGap atEnd ('/' :: '*' :: gap) := by
  obtain ⟨body, cs, rfl, hb, hg⟩ | ⟨he, hb⟩ := h
  · exact .block hb hg
  · exact .openBlock he hb

/-- A character that does not end the line belongs to the comment. -/
theorem Skips.inLine (hc : c ≠ '\n') (h : Skips atEnd .line gap) :
    Skips atEnd .line (c :: gap) := by
  obtain ⟨body, cs, rfl, hb, hg⟩ | ⟨he, hb⟩ := h
  · exact .inl ⟨c :: body, cs, rfl, by simpa [hc.symm] using hb, hg⟩
  · exact .inr ⟨he, by simpa [hc.symm] using hb⟩

/-- A character that does not start a closing mark belongs to the comment: what is dropped after it
starts with the next character of the text, so no mark begins at `c`. -/
theorem Skips.inBlock (hc : ¬ ['*', '/'] <+: c :: gap) (h : Skips atEnd .block gap) :
    Skips atEnd .block (c :: gap) := by
  obtain ⟨body, cs, rfl, hb, hg⟩ | ⟨he, hb⟩ := h
  · refine .inl ⟨c :: body, cs, rfl, fun hi => ?_, hg⟩
    rcases List.infix_cons_iff.1 hi with hp | hi
    · exact hc (hp.trans ⟨'*' :: '/' :: cs, rfl⟩)
    · exact hb hi
  · refine .inr ⟨he, fun hi => ?_⟩
    rcases List.infix_cons_iff.1 hi with hp | hi
    · exact hc hp
    · exact hb hi

/-- **Settled.** The text starts with neither a blank nor a comment. -/
def Settled : List Char → Prop
  | [] => True
  | c :: cs => isSpace c = false ∧ (c = '/' → ∀ d ∈ cs.head?, d ≠ '/' ∧ d ≠ '*')

theorem settled_nil : Settled [] := trivial

theorem settled_of_not {cs : List Char} (hc : isSpace c = false)
    (hline : ∀ ds, c = '/' → cs ≠ '/' :: ds) (hblock : ∀ ds, c = '/' → cs ≠ '*' :: ds) :
    Settled (c :: cs) := by
  refine ⟨hc, fun hslash d hd => ?_⟩
  obtain ⟨ds, rfl⟩ := List.head?_eq_some_iff.mp hd
  exact ⟨fun h => hline ds hslash (by rw [h]), fun h => hblock ds hslash (by rw [h])⟩

/-- **What is dropped.** `skipTrivia` splits the text in two; the place moves over what it drops. -/
theorem skipTrivia_skips (t : Trivia) (p : Position) (cs : List Char) :
    ∃ gap rest, cs = gap ++ rest ∧ skipTrivia t p cs = (p.advanceAll gap, rest) ∧
      Skips rest.isEmpty t gap ∧ Settled rest := by
  fun_induction skipTrivia t p cs with
  -- Outside of comments: one is opened, a blank is dropped, or something else follows.
  | case1 p cs ih =>
    obtain ⟨gap, rest, rfl, he, hs, hr⟩ := ih
    exact ⟨'/' :: '/' :: gap, rest, rfl, he, hs.openLine, hr⟩
  | case2 p cs ih =>
    obtain ⟨gap, rest, rfl, he, hs, hr⟩ := ih
    exact ⟨'/' :: '*' :: gap, rest, rfl, he, hs.openBlock, hr⟩
  | case3 p c cs _ _ hc ih =>
    obtain ⟨gap, rest, rfl, he, hs, hr⟩ := ih
    exact ⟨c :: gap, rest, rfl, he, .blank hc hs, hr⟩
  | case4 p c cs hline hblock hc =>
    refine ⟨[], c :: cs, rfl, rfl, .nil, settled_of_not (by simpa using hc) hline hblock⟩
  -- In a comment up to the end of the line.
  | case5 p c cs hc ih =>
    obtain ⟨gap, rest, rfl, he, hs, hr⟩ := ih
    obtain rfl : c = '\n' := by simpa using hc
    exact ⟨'\n' :: gap, rest, rfl, he, .inl ⟨[], gap, rfl, by simp, hs⟩, hr⟩
  | case6 p c cs hc ih =>
    obtain ⟨gap, rest, rfl, he, hs, hr⟩ := ih
    exact ⟨c :: gap, rest, rfl, he, hs.inLine (by simpa using hc), hr⟩
  -- In a comment up to its closing mark.
  | case7 p cs ih =>
    obtain ⟨gap, rest, rfl, he, hs, hr⟩ := ih
    exact ⟨'*' :: '/' :: gap, rest, rfl, he, .inl ⟨[], gap, rfl, by simp, hs⟩, hr⟩
  | case8 p c cs hc ih =>
    obtain ⟨gap, rest, rfl, he, hs, hr⟩ := ih
    refine ⟨c :: gap, rest, rfl, he, hs.inBlock ?_, hr⟩
    rintro ⟨ds, hd⟩
    obtain ⟨rfl, rfl⟩ : '*' = c ∧ '/' :: ds = gap := List.cons.inj hd
    exact hc _ rfl rfl
  -- At the end of the text, where a comment may be open.
  | case9 t p =>
    refine ⟨[], [], rfl, rfl, ?_, settled_nil⟩
    cases t
    · exact .nil
    · exact .inr ⟨rfl, by simp⟩
    · exact .inr ⟨rfl, by simp⟩

end Lexer

/-! ### Lexemes -/

/-- The text that the text of a literal stands for, given what each escape stands for. -/
def unescape (escape? : Char → Option Char) : List Char → Option (List Char)
  | [] => some []
  | ['\\'] => none
  | '\\' :: c :: cs => do return (← escape? c) :: (← unescape escape? cs)
  | c :: cs => (unescape escape? cs).map (c :: ·)

theorem unescape_cons (escape? : Char → Option Char) {c : Char} (hc : c ≠ '\\')
    (cs : List Char) : unescape escape? (c :: cs) = (unescape escape? cs).map (c :: ·) := by
  simp [unescape, hc]

/-- **A token and its lexeme.** A string is what the text between its quotes stands for, the text of
a template what the lexeme stands for; every other token has the lexeme as its value. -/
def Token.Spells (t : Token) (lexeme : List Char) : Prop :=
  match t.kind with
  | .string => ∃ body, lexeme = '"' :: (body ++ ['"']) ∧
      unescape Lexer.stringEscape? body = some t.value.toList
  | .fragment => unescape Lexer.templateEscape? lexeme = some t.value.toList
  | _ => t.value.toList = lexeme

/-- Whether the text of a template follows a token, given whether the token itself stands where such
text may: a backtick opens a template or closes it. -/
def TokenKind.textAfter (inText : Bool) : TokenKind → Bool
  | .backtick => !inText
  | .fragment | .interpolationEnd => true
  | _ => false

/-- Whether the text of a template follows in a mode. -/
def TemplateMode.inText : TemplateMode → Bool
  | .fragment | .afterInterpolation => true
  | .code | .interpolation => false

namespace Lexer

/-- **String body.** It stands for `value`, and is read as that up to the quote behind it, whatever
follows the quote. -/
structure IsStringBody (body value : List Char) : Prop where
  decoded : unescape stringEscape? body = some value
  read : ∀ acc p rest,
    ∃ stop, stringBody acc p (body ++ '"' :: rest) = .ok (acc.reverse ++ value, stop, rest)

/-- Where a template's text ends: at a backtick, at an interpolation or at the end. -/
def AtDelimiter (cs : List Char) : Prop :=
  cs = [] ∨ (∃ ds, cs = '\x60' :: ds) ∨ ∃ ds, cs = '$' :: '{' :: ds

/-- **Fragment body.** It stands for `value`, and is read as that up to what ends the text of a
template. -/
structure IsFragmentBody (body value : List Char) : Prop where
  decoded : unescape templateEscape? body = some value
  read : ∀ acc p rest, AtDelimiter rest →
    ∃ stop, fragmentBody acc p (body ++ rest) = .ok (acc.reverse ++ value, stop, rest)

section

variable {body value : List Char} {c d : Char}

attribute [local simp] unescape stringBody fragmentBody

theorem IsStringBody.nil : IsStringBody [] [] where
  decoded := rfl
  read acc p _ := ⟨p.advance '"', by simp⟩

theorem IsStringBody.escape (hd : stringEscape? c = some d) (h : IsStringBody body value) :
    IsStringBody ('\\' :: c :: body) (d :: value) where
  decoded := by simp [hd, h.decoded]
  read acc p rest := by
    obtain ⟨stop, hstop⟩ := h.read (d :: acc) ((p.advance '\\').advance c) rest
    exact ⟨stop, by simp [hd, hstop]⟩

theorem IsStringBody.char (hquote : c ≠ '"') (hfeed : c ≠ '\n') (hslash : c ≠ '\\')
    (h : IsStringBody body value) : IsStringBody (c :: body) (c :: value) where
  decoded := by simp [unescape_cons _ hslash, h.decoded]
  read acc p rest := by
    obtain ⟨stop, hstop⟩ := h.read (c :: acc) (p.advance c) rest
    refine ⟨stop, ?_⟩
    rw [List.cons_append, stringBody]
    · simpa using hstop
    · exact hquote
    · exact hfeed
    · exact fun hc _ => absurd hc hslash
    · exact fun _ _ hc => absurd hc hslash

/-- At a delimiter there is nothing to read. -/
theorem fragmentBody_of_atDelimiter {cs : List Char} (h : AtDelimiter cs) (acc : List Char)
    (p : Position) : fragmentBody acc p cs = .ok (acc.reverse, p, cs) := by
  obtain rfl | ⟨ds, rfl⟩ | ⟨ds, rfl⟩ := h <;> simp

theorem IsFragmentBody.nil : IsFragmentBody [] [] where
  decoded := rfl
  read acc p rest hrest := ⟨p, by simpa using fragmentBody_of_atDelimiter hrest acc p⟩

theorem IsFragmentBody.escape (hd : templateEscape? c = some d) (h : IsFragmentBody body value) :
    IsFragmentBody ('\\' :: c :: body) (d :: value) where
  decoded := by simp [hd, h.decoded]
  read acc p rest hrest := by
    obtain ⟨stop, hstop⟩ := h.read (d :: acc) ((p.advance '\\').advance c) rest hrest
    exact ⟨stop, by simp [hd, hstop]⟩

/-- A dollar sign belongs to the text if no brace follows it, and no delimiter starts with one. -/
theorem IsFragmentBody.char (htick : c ≠ '\x60') (hslash : c ≠ '\\')
    (hopen : c = '$' → ∀ ds, body ≠ '{' :: ds) (h : IsFragmentBody body value) :
    IsFragmentBody (c :: body) (c :: value) where
  decoded := by simp [unescape_cons _ hslash, h.decoded]
  read acc p rest hrest := by
    obtain ⟨stop, hstop⟩ := h.read (c :: acc) (p.advance c) rest hrest
    refine ⟨stop, ?_⟩
    -- What follows a dollar sign is the rest of the text, or the delimiter behind it.
    have hbrace (hc : c = '$') (ds : List Char) : body ++ rest ≠ '{' :: ds := by
      intro hds
      cases body with
      | nil => obtain rfl | ⟨_, rfl⟩ | ⟨_, rfl⟩ := hrest <;> cases hds
      | cons b body => exact hopen hc body (by rw [(List.cons.inj hds).1])
    rw [List.cons_append, fragmentBody]
    · simpa using hstop
    · exact htick
    · exact fun ds hc => hbrace hc ds
    · exact fun hc => absurd hc hslash
    · exact fun _ _ hc => absurd hc hslash

/-- Something to read is not at a delimiter. -/
theorem IsFragmentBody.not_atDelimiter (h : IsFragmentBody body value) (hne : body ≠ [])
    {rest : List Char} (hrest : AtDelimiter rest) : ¬ AtDelimiter (body ++ rest) := by
  intro hd
  obtain ⟨stop, hstop⟩ := h.read [] .start rest hrest
  rw [fragmentBody_of_atDelimiter hd] at hstop
  simp only [Except.ok.injEq, Prod.mk.injEq] at hstop
  exact hne (by simpa using hstop.2.2)

end

/-- A string literal that is read to its closing quote. -/
theorem stringBody_ok {acc : List Char} {p : Position} {cs : List Char} {value : List Char}
    {stop : Position} {rest : List Char} (h : stringBody acc p cs = .ok (value, stop, rest)) :
    ∃ body decoded, cs = body ++ '"' :: rest ∧ IsStringBody body decoded ∧
      value = acc.reverse ++ decoded ∧ stop = p.advanceAll (body ++ ['"']) := by
  fun_induction stringBody acc p cs with
  | case1 | case3 | case4 | case6 => cases h
  | case2 acc p cs =>
    cases h
    exact ⟨[], [], rfl, .nil, by simp, rfl⟩
  | case5 acc p c cs d hd ih =>
    obtain ⟨body, decoded, rfl, hb, rfl, rfl⟩ := ih h
    exact ⟨'\\' :: c :: body, d :: decoded, rfl, hb.escape hd, by simp, rfl⟩
  | case7 acc p c cs hquote hfeed hlast hnext ih =>
    have hc : c ≠ '\\' := by rintro rfl; cases cs <;> simp_all
    obtain ⟨body, decoded, rfl, hb, rfl, rfl⟩ := ih h
    exact ⟨c :: body, c :: decoded, rfl, hb.char hquote hfeed hc, by simp, rfl⟩

/-- Template text that is read to a delimiter. -/
theorem fragmentBody_ok {acc : List Char} {p : Position} {cs : List Char} {value : List Char}
    {stop : Position} {rest : List Char} (h : fragmentBody acc p cs = .ok (value, stop, rest)) :
    ∃ body decoded, cs = body ++ rest ∧ IsFragmentBody body decoded ∧ AtDelimiter rest ∧
      value = acc.reverse ++ decoded ∧ stop = p.advanceAll body := by
  fun_induction fragmentBody acc p cs with
  | case4 | case6 => cases h
  -- A delimiter follows, or the end of the text.
  | case1 | case2 | case3 =>
    cases h
    exact ⟨[], [], rfl, .nil, by simp [AtDelimiter], by simp, rfl⟩
  | case5 acc p c cs d hd ih =>
    obtain ⟨body, decoded, rfl, hb, hrest, rfl, rfl⟩ := ih h
    exact ⟨'\\' :: c :: body, d :: decoded, rfl, hb.escape hd, hrest, by simp, rfl⟩
  | case7 acc p c cs htick hopen hlast hnext ih =>
    have hc : c ≠ '\\' := by rintro rfl; cases cs <;> simp_all
    obtain ⟨body, decoded, rfl, hb, hrest, rfl, rfl⟩ := ih h
    refine ⟨c :: body, c :: decoded, rfl, hb.char htick hc fun hd ds hbody => ?_, hrest, by simp,
      rfl⟩
    exact hopen (ds ++ rest) hd (by rw [hbody, List.cons_append])

/-! ### The lexemes of ordinary code -/

theorem wordLength_le (cs : List Char) : wordLength cs ≤ cs.length := by
  unfold wordLength
  split
  case h_1 => exact Nat.le_refl _
  case h_2 c cs =>
    have hrest : (cs.takeWhile isWordRest).length ≤ cs.length :=
      (List.takeWhile_sublist isWordRest).length_le
    rw [List.length_cons]
    split <;> omega

theorem digitsLength_le (cs : List Char) : digitsLength cs ≤ cs.length :=
  (List.takeWhile_sublist _).length_le

theorem fractionLength_le (cs : List Char) : fractionLength cs ≤ cs.length := by
  unfold fractionLength
  split
  case h_1 cs =>
    have := digitsLength_le cs
    split <;> simp_all
  case h_2 => exact Nat.zero_le _

theorem exponentLength_le (cs : List Char) : exponentLength cs ≤ cs.length := by
  unfold exponentLength
  split
  case h_2 => exact Nat.le_refl _
  case h_1 c cs =>
    split
    case isFalse => exact Nat.zero_le _
    case isTrue =>
      split
      case h_2 => exact Nat.zero_le _
      case h_1 s cs =>
        have hcs := digitsLength_le cs
        have hscs := digitsLength_le (s :: cs)
        split <;> split <;> simp_all

theorem numberLength_le (cs : List Char) : numberLength cs ≤ cs.length := by
  unfold numberLength
  split
  · exact Nat.zero_le _
  · have hdigits := digitsLength_le cs
    have hfraction := fractionLength_le (cs.drop (digitsLength cs))
    have hexponent := exponentLength_le
      (cs.drop (digitsLength cs + fractionLength (cs.drop (digitsLength cs))))
    simp only [List.length_drop] at hfraction hexponent ⊢
    omega

/-- **Code lexeme.** A lexeme of ordinary code in front of `rest`, with the kind that it has by
itself and the value of its token. -/
inductive CodeLexeme (rest : List Char) : List Char → TokenKind × String → Prop
  | string {body value : List Char} : IsStringBody body value →
      CodeLexeme rest ('"' :: (body ++ ['"'])) (.string, .ofList value)
  | word {lexeme : List Char} : lexeme ≠ [] → wordLength (lexeme ++ rest) = lexeme.length →
      CodeLexeme rest lexeme (Token.wordKind (.ofList lexeme), .ofList lexeme)
  | number {lexeme : List Char} : lexeme ≠ [] → wordLength (lexeme ++ rest) = 0 →
      numberLength (lexeme ++ rest) = lexeme.length →
      CodeLexeme rest lexeme (.number, .ofList lexeme)
  | mark {lexeme : List Char} {kind : TokenKind} : wordLength (lexeme ++ rest) = 0 →
      numberLength (lexeme ++ rest) = 0 → mark? (lexeme ++ rest) = some (lexeme, kind) →
      CodeLexeme rest lexeme (kind, .ofList lexeme)

/-- The kinds of the tokens whose lexeme is their value. -/
def Plain (k : TokenKind) : Prop := k ≠ .string ∧ k ≠ .fragment ∧ k ≠ .eof

theorem Plain.spells {t : Token} {lexeme : List Char} (h : Plain t.kind)
    (hv : t.value = .ofList lexeme) : t.Spells lexeme := by
  obtain ⟨hs, hf, -⟩ := h
  unfold Token.Spells
  split <;> simp_all

/-- A word is a token whose lexeme is its value. -/
theorem plain_wordKind (word : String) : Plain (Token.wordKind word) := by
  unfold Token.wordKind Plain
  repeat' split
  all_goals simp

/-- Text of a template follows no word. -/
theorem textAfter_wordKind (word : String) (b : Bool) :
    (Token.wordKind word).textAfter b = false := by
  unfold Token.wordKind
  repeat' split
  all_goals rfl

/-- The mark at the front is not empty and has a kind of its own. -/
theorem mark?_mem {cs text : List Char} {kind : TokenKind} (h : mark? cs = some (text, kind)) :
    text ≠ [] ∧ text <+: cs ∧ Plain kind ∧ (kind ≠ .backtick → kind.textAfter false = false) := by
  have hall : ∀ m ∈ marks, m.1 ≠ [] ∧ Plain m.2 ∧
      (m.2 ≠ .backtick → m.2.textAfter false = false) := by
    unfold Plain
    decide
  obtain ⟨hne, hplain, hafter⟩ := hall _ (List.mem_of_find?_eq_some h)
  have hfront : text <+: cs := by simpa using List.find?_some h
  exact ⟨hne, hfront, hplain, hafter⟩

/-- A word is no mark that changes the relation to templates. -/
theorem onMark_wordKind (mode : TemplateMode) (depth : Nat) (word : String) :
    onMark mode depth (Token.wordKind word) = (Token.wordKind word, mode, depth) := by
  unfold Token.wordKind
  repeat' split
  all_goals rfl

/-- A mark of ordinary code leads to the text of a template exactly if its kind says so. -/
theorem onMark_spec {mode : TemplateMode} (depth : Nat) {kind : TokenKind} (hk : Plain kind)
    (ha : kind ≠ .backtick → kind.textAfter false = false) (hm : mode.inText = false) :
    Plain (onMark mode depth kind).1 ∧
      (onMark mode depth kind).2.1.inText = (onMark mode depth kind).1.textAfter false := by
  unfold onMark
  split
  · exact ⟨by simp [Plain], rfl⟩
  · split
    · exact ⟨by simp [Plain], rfl⟩
    · exact ⟨hk, by simp_all⟩

/-! ### One call -/

/-- Whether the text of a template follows the place of the lexer. -/
def inText (l : Lexer) : Bool := l.mode.inText

/-- The relation to template literals, and the number of open ones. -/
def stage (l : Lexer) : TemplateMode × Nat := (l.mode, l.depth)

/-- **Scans.** In a stage and in front of `rest`, a gap and a lexeme are read as a token of this
kind and value, and another stage follows. -/
inductive Scans (rest : List Char) :
    TemplateMode × Nat → List Char → List Char → TokenKind × String → TemplateMode × Nat → Prop
  | code {mode : TemplateMode} {depth : Nat} {gap lexeme : List Char} {kind kind' : TokenKind}
      {value : String} {stage : TemplateMode × Nat} : mode.inText = false → IsGap false gap →
      Settled (lexeme ++ rest) → CodeLexeme rest lexeme (kind, value) →
      onMark mode depth kind = (kind', stage) →
      Scans rest (mode, depth) gap lexeme (kind', value) stage
  | closing {mode : TemplateMode} {depth : Nat} : mode.inText = true →
      Scans rest (mode, depth) [] ['\x60'] (.backtick, "\x60") (.code, depth - 1)
  | opening {mode : TemplateMode} {depth : Nat} : mode.inText = true →
      Scans rest (mode, depth) [] ['$', '{'] (.interpolationStart, "$\x7b") (.interpolation, depth)
  | text {mode : TemplateMode} {depth : Nat} {lexeme value : List Char} : mode.inText = true →
      lexeme ≠ [] → IsFragmentBody lexeme value → AtDelimiter rest →
      Scans rest (mode, depth) [] lexeme (.fragment, .ofList value) (mode, depth)

/-- **A call that yields a token.** What was left of the text is a gap, the lexeme of the token and
what is left after the call. -/
structure Yields (l : Lexer) (t : Token) (l' : Lexer) (gap lexeme : List Char) : Prop where
  split : l.rest = gap ++ lexeme ++ l'.rest
  scans : Scans l'.rest l.stage gap lexeme (t.kind, t.value) l'.stage
  position : l'.position = l.position.advanceAll (gap ++ lexeme)
  file : l'.file = l.file
  token : t = tokenBetween l.file t.kind t.value (l.position.advanceAll gap) l'.position

/-- The token made of the first characters after a gap, where the lexer `behind` stands. -/
theorem yields_take {l l' : Lexer} {gap : List Char} (behind : Lexer) (kind : String → TokenKind)
    {n : Nat} (hr : l.rest = gap ++ behind.rest)
    (hp : behind.position = l.position.advanceAll gap) (hf : behind.file = l.file)
    (hf' : l'.file = l.file) (hr' : l'.rest = (behind.take kind n).2.rest)
    (hp' : l'.position = (behind.take kind n).2.position)
    (hs : Scans (behind.rest.drop n) l.stage gap (behind.rest.take n)
      (kind (.ofList (behind.rest.take n)), .ofList (behind.rest.take n)) l'.stage) :
    Yields l (behind.take kind n).1 l' gap (behind.rest.take n) where
  split := by rw [hr, hr', take, List.append_assoc, List.take_append_drop]
  scans := by rw [hr']; exact hs
  position := by rw [hp', take, Position.advanceAll_append, hp]
  file := hf'
  token := by rw [hp', ← hp, ← hf]; rfl

/-- A call inside a template drops nothing. -/
theorem nextTemplate_yields {l l' : Lexer} {t : Token} (hl : l.mode.inText = true)
    (h : l.nextTemplate = (.ok (some t), l')) : ∃ lexeme, Yields l t l' [] lexeme := by
  unfold nextTemplate at h
  split at h
  · cases h
  case h_2 hr =>
    cases h
    exact ⟨_, yields_take l (fun _ => .backtick) rfl rfl rfl rfl rfl rfl
      (by rw [hr]; exact .closing hl)⟩
  case h_3 hr =>
    cases h
    exact ⟨_, yields_take l (fun _ => .interpolationStart) rfl rfl rfl rfl rfl rfl
      (by rw [hr]; exact .opening hl)⟩
  case h_4 cs hnil htick hopen =>
    split at h
    case h_2 => cases h
    case h_1 value stop rest hb =>
      cases h
      obtain ⟨body, decoded, hr, hbody, hrest, rfl, rfl⟩ := fragmentBody_ok hb
      -- If the text were empty, a delimiter would stand here.
      have hne : body ≠ [] := by
        rintro rfl
        obtain rfl | ⟨ds, rfl⟩ | ⟨ds, rfl⟩ := hrest
        · exact hnil hr
        · exact htick ds hr
        · exact hopen ds hr
      exact ⟨body, hr, .text hl hne hbody hrest, rfl, rfl, rfl⟩

/-- A call in ordinary code drops a gap first. -/
theorem nextCode_yields {l l' : Lexer} {t : Token} (hl : l.mode.inText = false)
    (h : l.nextCode = (.ok (some t), l')) : ∃ gap lexeme, Yields l t l' gap lexeme := by
  obtain ⟨gap, rest, hsplit, hskip, hgap, hsettled⟩ := skipTrivia_skips .none l.position l.rest
  unfold nextCode at h
  simp only [hskip] at h
  split at h
  · cases h
  case h_2 cs hnil =>
    split at h
    case h_2 => cases h
    case h_1 value stop rest hb =>
      cases h
      obtain ⟨body, decoded, rfl, hbody, rfl, rfl⟩ := stringBody_ok hb
      exact ⟨gap, '"' :: (body ++ ['"']), by simpa using hsplit,
        .code hl hgap (by simpa using hsettled) (.string hbody) rfl,
        by simp [Position.advanceAll_append], rfl, rfl⟩
  case h_3 c cs hq =>
    -- The lexeme is a first part of what is left, so measuring both together gives its length.
    have hparts (n : Nat) : (c :: cs).take n ++ (c :: cs).drop n = c :: cs :=
      List.take_append_drop n _
    have hlength {n : Nat} (hn : n ≤ (c :: cs).length) : ((c :: cs).take n).length = n := by
      exact List.length_take_of_le hn
    split at h
    case h_1 hword hnumber =>
      split at h
      · cases h
      case h_2 text kind hm =>
        cases h
        obtain ⟨-, ⟨ds, hds⟩, -⟩ := mark?_mem hm
        have htext : (c :: cs).take text.length = text := by simp [← hds]
        refine ⟨gap, _, yields_take ⟨_, c :: cs, _, _, _⟩ _ hsplit rfl rfl rfl rfl rfl ?_⟩
        refine .code hl hgap (by rwa [hparts]) (.mark ?_ ?_ ?_) rfl
        · rwa [hparts]
        · rwa [hparts]
        · show _ = some ((c :: cs).take text.length, kind)
          rw [hparts, hm, htext]
    case h_2 hword hnumber =>
      cases h
      refine ⟨gap, _, yields_take ⟨_, c :: cs, _, _, _⟩ (fun _ => .number) hsplit rfl rfl rfl rfl
        rfl ?_⟩
      refine .code hl hgap (by rwa [hparts]) (.number ?_ ?_ ?_) rfl
      · simpa using hnumber
      · rwa [hparts]
      · rw [hparts, hlength (numberLength_le _)]
    case h_3 hword _ =>
      cases h
      refine ⟨gap, _, yields_take ⟨_, c :: cs, _, _, _⟩ _ hsplit rfl rfl rfl rfl rfl ?_⟩
      refine .code hl hgap (by rwa [hparts]) (.word ?_ ?_) (onMark_wordKind _ _ _)
      · simpa using hword
      · rw [hparts, hlength (wordLength_le _)]

/-- **Every call that yields a token** reads a gap and a lexeme. -/
theorem next_yields {l l' : Lexer} {t : Token} (h : l.next = (.ok (some t), l')) :
    ∃ gap lexeme, Yields l t l' gap lexeme := by
  unfold next at h
  split at h
  case h_1 hm => exact ⟨[], nextTemplate_yields (by rw [hm]; rfl) h⟩
  case h_2 hm => exact ⟨[], nextTemplate_yields (by rw [hm]; rfl) h⟩
  case h_3 hm => exact nextCode_yields (by rw [hm]; rfl) h
  case h_4 hm => exact nextCode_yields (by rw [hm]; rfl) h

/-- The lexer at the end of the text, which it has gone to from here without reading a token. -/
def ended (l : Lexer) : Lexer :=
  { l with rest := [], position := l.position.advanceAll l.rest }

@[simp] theorem rest_ended (l : Lexer) : l.ended.rest = [] := rfl

@[simp] theorem position_ended (l : Lexer) : l.ended.position = l.position.advanceAll l.rest := rfl

@[simp] theorem stage_ended (l : Lexer) : l.ended.stage = l.stage := rfl

theorem ended_of_rest {l : Lexer} (h : l.rest = []) : l.ended = l := by
  obtain ⟨file, rest, p, mode, depth⟩ := l
  obtain rfl : rest = [] := h
  rfl

/-- **A call that finds the end** goes there over a gap, or over nothing inside a template, and does
nothing else. -/
theorem next_ends {l l' : Lexer} (h : l.next = (.ok none, l')) :
    IsGap true l.rest ∧ (l.inText = true → l.rest = []) ∧ l' = l.ended := by
  have hcode (hc : l.nextCode = (.ok none, l')) : IsGap true l.rest ∧ l' = l.ended := by
    obtain ⟨gap, rest, hsplit, hskip, hgap, -⟩ := skipTrivia_skips .none l.position l.rest
    unfold nextCode at hc
    simp only [hskip] at hc
    split at hc
    · cases hc
      rw [List.append_nil] at hsplit
      exact ⟨hsplit ▸ hgap, by rw [ended, hsplit]⟩
    all_goals repeat' split at hc
    all_goals cases hc
  have htemplate (hc : l.nextTemplate = (.ok none, l')) : l.rest = [] ∧ l' = l.ended := by
    unfold nextTemplate at hc
    split at hc
    · rename_i hrest
      cases hc
      exact ⟨hrest, (ended_of_rest hrest).symm⟩
    all_goals repeat' split at hc
    all_goals cases hc
  unfold next at h
  split at h
  case h_1 | h_2 =>
    obtain ⟨hrest, hl'⟩ := htemplate h
    rw [hrest]
    exact ⟨.nil, fun _ => rfl, hl'⟩
  case h_3 hm | h_4 hm =>
    obtain ⟨hgap, hl'⟩ := hcode h
    exact ⟨hgap, by simp [inText, hm, TemplateMode.inText], hl'⟩

/-! ### What a call says of its token -/

section

variable {gap lexeme rest : List Char} {t : Token} {kind : TokenKind} {value : String}
  {stage stage' : TemplateMode × Nat}

/-- A lexeme is a string literal or the value of its token. -/
theorem CodeLexeme.cases_plain (h : CodeLexeme rest lexeme (kind, value)) : lexeme ≠ [] ∧
    ((kind = .string ∧ ∃ body decoded, lexeme = '"' :: (body ++ ['"']) ∧ value = .ofList decoded ∧
      IsStringBody body decoded) ∨
    (Plain kind ∧ value = .ofList lexeme ∧ (kind ≠ .backtick → kind.textAfter false = false))) := by
  cases h with
  | string hbody => exact ⟨nofun, .inl ⟨rfl, _, _, rfl, rfl, hbody⟩⟩
  | word hne _ => exact ⟨hne, .inr ⟨plain_wordKind _, rfl, fun _ => textAfter_wordKind _ _⟩⟩
  | number hne _ _ => exact ⟨hne, .inr ⟨by simp [Plain], rfl, fun _ => rfl⟩⟩
  | mark _ _ hm =>
    obtain ⟨hne, -, hplain, hafter⟩ := mark?_mem hm
    exact ⟨hne, .inr ⟨hplain, rfl, hafter⟩⟩

theorem Scans.lexeme_ne {w : TokenKind × String} (h : Scans rest stage gap lexeme w stage') :
    lexeme ≠ [] := by
  cases h with
  | code _ _ _ hl _ => exact hl.cases_plain.1
  | closing | opening => nofun
  | text _ hne _ _ => exact hne

theorem Scans.isGap {w : TokenKind × String} (h : Scans rest stage gap lexeme w stage') :
    IsGap false gap := by
  cases h with
  | code _ hgap _ _ _ => exact hgap
  | closing | opening | text => exact .nil

/-- What a code lexeme is, once its mark has been looked up. -/
theorem CodeLexeme.cases_onMark {mode : TemplateMode} {depth : Nat} {kind' : TokenKind}
    (h : CodeLexeme rest lexeme (kind, value)) (hm : mode.inText = false)
    (hmark : onMark mode depth kind = (kind', stage)) :
    stage.1.inText = kind'.textAfter false ∧
      ((kind' = .string ∧ ∃ body decoded, lexeme = '"' :: (body ++ ['"']) ∧
        value = .ofList decoded ∧ IsStringBody body decoded) ∨
      (Plain kind' ∧ value = .ofList lexeme)) := by
  obtain ⟨-, ⟨rfl, hstring⟩ | ⟨hplain, hvalue, hafter⟩⟩ := h.cases_plain
  · obtain ⟨rfl, rfl⟩ : TokenKind.string = kind' ∧ (mode, depth) = stage := Prod.mk.inj hmark
    exact ⟨hm, .inl ⟨rfl, hstring⟩⟩
  · have hspec := onMark_spec depth hplain hafter hm
    rw [hmark] at hspec
    exact ⟨hspec.2, .inr ⟨hspec.1, hvalue⟩⟩

theorem CodeLexeme.kind_ne {mode : TemplateMode} {depth : Nat} {kind' : TokenKind}
    (h : CodeLexeme rest lexeme (kind, value)) (hm : mode.inText = false)
    (hmark : onMark mode depth kind = (kind', stage)) : kind' ≠ .fragment ∧ kind' ≠ .eof := by
  obtain ⟨-, ⟨rfl, -⟩ | ⟨hplain, -⟩⟩ := h.cases_onMark hm hmark
  · exact ⟨nofun, nofun⟩
  · exact hplain.2

theorem Scans.inText (h : Scans rest stage gap lexeme (kind, value) stage') :
    stage'.1.inText = kind.textAfter stage.1.inText := by
  cases h with
  | code hm _ _ hl hmark => rw [hm]; exact (hl.cases_onMark hm hmark).1
  | closing hm => rw [hm]; rfl
  | opening => rfl
  | text hm _ _ _ => exact hm

theorem Scans.kind_ne (h : Scans rest stage gap lexeme (kind, value) stage') : kind ≠ .eof := by
  cases h with
  | code hm _ _ hl hmark => exact (hl.kind_ne hm hmark).2
  | closing | opening | text => nofun

/-- No gap is dropped next to the text of a template. -/
theorem Scans.noGap (h : Scans rest stage gap lexeme (kind, value) stage')
    (hno : stage.1.inText ∨ kind = .fragment) : gap = [] := by
  cases h with
  | code hm _ _ hl hmark =>
    obtain hno | hk := hno
    · simp [hm] at hno
    · exact absurd hk (hl.kind_ne hm hmark).1
  | closing | opening | text => rfl

theorem Scans.spells (h : Scans rest stage gap lexeme (t.kind, t.value) stage') :
    t.Spells lexeme := by
  obtain ⟨kind, value, span, line, column, file⟩ := t
  cases h with
  | code hm _ _ hl hmark =>
    obtain ⟨-, ⟨rfl, body, decoded, rfl, rfl, hbody⟩ | ⟨hplain, hvalue⟩⟩ := hl.cases_onMark hm hmark
    · exact ⟨body, rfl, by simpa using hbody.decoded⟩
    · exact Plain.spells hplain hvalue
  | closing | opening => simp [Token.Spells]
  | text _ _ hbody _ =>
    show unescape templateEscape? lexeme = some (String.ofList _).toList
    rw [String.toList_ofList]
    exact hbody.decoded

end

namespace Yields

variable {l l' : Lexer} {t : Token} {gap lexeme : List Char}

theorem span (h : Yields l t l' gap lexeme) :
    t.span = Span.ofRange (l.position.advanceAll gap).offset l'.position.offset := by
  rw [h.token]
  rfl

theorem line (h : Yields l t l' gap lexeme) :
    t.line = .ofNatClamp (l.position.advanceAll gap).line := by
  rw [h.token]
  rfl

theorem column (h : Yields l t l' gap lexeme) :
    t.column = .ofNatClamp (l.position.advanceAll gap).column := by
  rw [h.token]
  rfl

theorem token_file (h : Yields l t l' gap lexeme) : t.file = l.file := by
  rw [h.token]
  rfl

theorem inText (h : Yields l t l' gap lexeme) : l'.inText = t.kind.textAfter l.inText :=
  h.scans.inText

theorem noGap (h : Yields l t l' gap lexeme) (hno : l.inText ∨ t.kind = .fragment) : gap = [] :=
  h.scans.noGap hno

/-- Every token takes a character at least. -/
theorem length_lt (h : Yields l t l' gap lexeme) : l'.rest.length < l.rest.length := by
  have hpos := List.length_pos_iff.mpr h.scans.lexeme_ne
  rw [h.split]
  simp only [List.length_append]
  omega

end Yields

end Lexer

end ScriptLang
