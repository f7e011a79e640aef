import ScriptLang.Proofs.Lexemes

/-!
# The calls that read a text

Tokenizing calls the lexer until it finds the end. `Lexer.Calls` lists the tokens that calls of the
lexer yield on the way from one state to another; there is no fuel in it.

* `Lexer.next_of_scans` — the other direction of `Lexer.next_yields`: whatever `Lexer.Scans` says of
  a gap and a lexeme, the lexer reads these two if it stands in front of them, at any place. With
  `Lexer.next_of_ends` a call is known from the text in front of it and the stage alone.
* `Lexer.Calls.onward` — calls are determined: whoever reads up to the end passes every state that
  some calls lead to.
* `Lexer.Calls.split` — between two states the lexer moves over a part of the text.
* `Lexer.tokenize_eq_ok_iff` — the tokens of a text are those of the calls up to the end, and an
  `eof` token. The fuel suffices, because every token takes a character.
* `Lexer.yields_of_tokenize` — where each token of a text is read.
-/

namespace ScriptLang

namespace Lexer

/-! ### What is scanned is read -/

attribute [local simp] skipTrivia

section

variable {body : List Char}

theorem skipTrivia_line (h : '\n' ∉ body) (p : Position) (cs : List Char) :
    skipTrivia .line p (body ++ cs) = skipTrivia .line (p.advanceAll body) cs := by
  induction body generalizing p with
  | nil => rfl
  | cons c body ih =>
    obtain ⟨hc, hbody⟩ := not_or.mp (mt List.mem_cons.mpr h)
    rw [List.cons_append, skipTrivia, if_neg (by simpa using Ne.symm hc), ih hbody]
    rfl

/-- No mark closes a comment before the one that does, not even with a star of the comment. -/
theorem skipTrivia_block (h : ¬ ['*', '/'] <:+: body) (p : Position) {cs : List Char}
    (hcs : ∀ ds, cs ≠ '/' :: ds) :
    skipTrivia .block p (body ++ cs) = skipTrivia .block (p.advanceAll body) cs := by
  induction body generalizing p with
  | nil => rfl
  | cons c body ih =>
    obtain ⟨hfront, hinside⟩ := not_or.mp (mt List.infix_cons_iff.mpr h)
    rw [List.cons_append, skipTrivia, ih hinside]
    · rfl
    · rintro ds rfl hds
      cases body with
      | nil => exact hcs ds hds
      | cons d body =>
        obtain rfl : d = '/' := (List.cons.inj hds).1
        exact hfront ⟨body, rfl⟩

end

theorem skipTrivia_of_settled {rest : List Char} (h : Settled rest) (p : Position) :
    skipTrivia .none p rest = (p, rest) := by
  cases rest with
  | nil => rfl
  | cons c cs =>
    obtain ⟨hc, hslash⟩ := h
    rw [skipTrivia, if_neg (by simp [hc])]
    · rintro ds rfl rfl
      exact (hslash rfl '/' rfl).1 rfl
    · rintro ds rfl rfl
      exact (hslash rfl '*' rfl).2 rfl

/-- A gap is dropped as a whole if it is settled what follows. -/
theorem skipTrivia_of_isGap {atEnd : Bool} {gap rest : List Char} (hgap : IsGap atEnd gap)
    (hsettled : Settled rest) (hend : atEnd = true → rest = []) (p : Position) :
    skipTrivia .none p (gap ++ rest) = (p.advanceAll gap, rest) := by
  -- By induction on the gap. A comment is dropped in two steps: its opening mark, and its text up
  -- to where it ends.
  induction hgap generalizing p with
  | nil => exact skipTrivia_of_settled hsettled p
  | @blank c cs hc _ ih =>
    have hslash : c ≠ '/' := by rintro rfl; cases hc
    rw [List.cons_append, skipTrivia, if_pos hc, ih]
    · rfl
    · exact fun _ h => absurd h hslash
    · exact fun _ h => absurd h hslash
  | @line body cs hbody _ ih =>
    have hopen : skipTrivia .none p ('/' :: '/' :: (body ++ '\n' :: cs) ++ rest) =
        skipTrivia .line ((p.advance '/').advance '/') (body ++ '\n' :: (cs ++ rest)) := by
      simp
    rw [hopen, skipTrivia_line hbody, skipTrivia, if_pos (beq_self_eq_true _), ih]
    simp [Position.advanceAll_append]
  | @block body cs hbody _ ih =>
    have hopen : skipTrivia .none p ('/' :: '*' :: (body ++ '*' :: '/' :: cs) ++ rest) =
        skipTrivia .block ((p.advance '/').advance '*') (body ++ '*' :: '/' :: (cs ++ rest)) := by
      simp
    rw [hopen, skipTrivia_block hbody _ (by simp), skipTrivia, ih]
    simp [Position.advanceAll_append]
  -- A comment that is still open is the last thing in the text.
  | @openLine body he hbody =>
    obtain rfl := hend he
    have hopen : skipTrivia .none p ('/' :: '/' :: body ++ []) =
        skipTrivia .line ((p.advance '/').advance '/') (body ++ []) := by
      simp
    rw [hopen, skipTrivia_line hbody, skipTrivia]
    rfl
  | @openBlock body he hbody =>
    obtain rfl := hend he
    have hopen : skipTrivia .none p ('/' :: '*' :: body ++ []) =
        skipTrivia .block ((p.advance '/').advance '*') (body ++ []) := by
      simp
    rw [hopen, skipTrivia_block hbody _ (by simp), skipTrivia]
    rfl

section

variable {l : Lexer} {gap lexeme rest : List Char} {kind : TokenKind} {value : String}

theorem next_of_inText (h : l.mode.inText = true) : l.next = l.nextTemplate := by
  unfold next
  cases hm : l.mode <;> first | rfl | (rw [hm] at h; cases h)

theorem next_of_not_inText (h : l.mode.inText = false) : l.next = l.nextCode := by
  unfold next
  cases hm : l.mode <;> first | rfl | (rw [hm] at h; cases h)

/-- A token that is as long as a first part of the text is made of it. -/
theorem take_lexeme (h : l.rest = lexeme ++ rest) (kind : String → TokenKind) :
    l.take kind lexeme.length =
      (tokenBetween l.file (kind (.ofList lexeme)) (.ofList lexeme) l.position
        (l.position.advanceAll lexeme),
      { l with rest := rest, position := l.position.advanceAll lexeme }) := by
  simp [take, h]

/-- A call in ordinary code reads the lexeme behind the gap. -/
theorem nextCode_of_lexeme (hl : CodeLexeme rest lexeme (kind, value)) {p : Position}
    (hskip : skipTrivia .none l.position l.rest = (p, lexeme ++ rest)) :
    ∃ t l', l.nextCode = (.ok (some t), l') ∧
      (t.kind, t.value) = ((onMark l.mode l.depth kind).1, value) ∧ l'.rest = rest ∧
      l'.stage = (onMark l.mode l.depth kind).2 := by
  have hne := hl.cases_plain.1
  unfold nextCode
  simp only [hskip]
  split
  case h_1 hnil => simp_all
  case h_2 cs hquote =>
    -- A quote is at the front of a string literal only.
    cases hl with
    | @string body decoded hbody =>
      obtain ⟨stop, hstop⟩ := hbody.read [] (p.advance '"') rest
      have hcs : cs = body ++ '"' :: rest := by simpa using hquote.symm
      rw [hcs, hstop]
      exact ⟨_, _, rfl, rfl, rfl, rfl⟩
    | word _ hword =>
      rw [hquote] at hword
      exact absurd (List.length_eq_zero_iff.mp hword.symm) hne
    | number _ _ hnumber =>
      rw [hquote] at hnumber
      exact absurd (List.length_eq_zero_iff.mp hnumber.symm) hne
    | mark _ _ hmark =>
      rw [hquote] at hmark
      cases hmark
  case h_3 c cs hquote hcs =>
    rw [← hcs]
    cases hl with
    | string _ => exact absurd (List.cons.inj hcs).1.symm hquote
    | word _ hword =>
      rw [hword]
      split
      case h_1 hzero _ => exact absurd (List.length_eq_zero_iff.mp hzero) hne
      case h_2 hzero _ => exact absurd (List.length_eq_zero_iff.mp hzero) hne
      case h_3 =>
        rw [take_lexeme rfl, onMark_wordKind]
        exact ⟨_, _, rfl, rfl, rfl, rfl⟩
    | number _ hword hnumber =>
      rw [hword, hnumber]
      split
      case h_1 hzero => exact absurd (List.length_eq_zero_iff.mp hzero) hne
      case h_2 =>
        rw [take_lexeme rfl]
        exact ⟨_, _, rfl, rfl, rfl, rfl⟩
      case h_3 hpos _ => exact absurd rfl hpos
    | mark hword hnumber hmark =>
      rw [hword, hnumber, hmark]
      dsimp only
      rw [take_lexeme rfl]
      exact ⟨_, _, rfl, rfl, rfl, rfl⟩

/-- **What is scanned is what a call reads**, wherever the lexer stands. -/
theorem next_of_scans {w : TokenKind × String} {stage' : TemplateMode × Nat}
    (h : Scans rest l.stage gap lexeme w stage') (hrest : l.rest = gap ++ lexeme ++ rest) :
    ∃ t l', l.next = (.ok (some t), l') ∧ (t.kind, t.value) = w ∧ l'.rest = rest ∧
      l'.stage = stage' := by
  obtain ⟨file, cs, p, mode, depth⟩ := l
  cases h with
  | code hm hgap hsettled hl hmark =>
    rw [next_of_not_inText hm]
    have hskip : skipTrivia .none p cs = (p.advanceAll gap, lexeme ++ rest) := by
      rw [show cs = gap ++ (lexeme ++ rest) by simpa using hrest]
      exact skipTrivia_of_isGap hgap hsettled nofun p
    obtain ⟨t, l', hnext, hword, hrest', hstage⟩ :=
      @nextCode_of_lexeme ⟨file, cs, p, mode, depth⟩ _ _ _ _ hl _ hskip
    rw [hmark] at hword hstage
    exact ⟨t, l', hnext, hword, hrest', hstage⟩
  | closing hm =>
    rw [next_of_inText hm]
    obtain rfl : cs = '\x60' :: rest := hrest
    exact ⟨_, _, rfl, rfl, rfl, rfl⟩
  | opening hm =>
    rw [next_of_inText hm]
    obtain rfl : cs = '$' :: '{' :: rest := hrest
    exact ⟨_, _, rfl, rfl, rfl, rfl⟩
  | text hm hne hbody hdelimiter =>
    rw [next_of_inText hm]
    obtain rfl : cs = lexeme ++ rest := hrest
    -- The text of a template begins with no delimiter, so none of the other branches is taken.
    have hnot := hbody.not_atDelimiter hne hdelimiter
    obtain ⟨stop, hstop⟩ := hbody.read [] p rest hdelimiter
    unfold nextTemplate
    dsimp only
    split
    case h_1 h => exact absurd (.inl h) hnot
    case h_2 h => exact absurd (.inr (.inl ⟨_, h⟩)) hnot
    case h_3 h => exact absurd (.inr (.inr ⟨_, h⟩)) hnot
    case h_4 =>
      rw [hstop]
      exact ⟨_, _, rfl, rfl, rfl, rfl⟩

/-- **At the end** there are no more tokens: in a template at once, elsewhere behind a gap. -/
theorem next_of_ends (hgap : IsGap true l.rest) (hl : l.inText = true → l.rest = []) :
    ∃ l', l.next = (.ok none, l') := by
  cases hm : l.mode.inText with
  | true =>
    rw [next_of_inText hm, nextTemplate, hl hm]
    exact ⟨_, rfl⟩
  | false =>
    have hskip : skipTrivia .none l.position (l.rest ++ []) = (l.position.advanceAll l.rest, []) :=
      skipTrivia_of_isGap hgap settled_nil (fun _ => rfl) _
    rw [List.append_nil] at hskip
    rw [next_of_not_inText hm, nextCode, hskip]
    exact ⟨_, rfl⟩

end

/-! ### Calls one after the other -/

/-- **Calls.** The lexer reads these tokens, and is where it is said then. -/
inductive Calls : Lexer → List Token → Lexer → Prop
  | done {l : Lexer} : Calls l [] l
  | token {l l₁ l₂ : Lexer} {t : Token} {ts : List Token} :
      l.next = (.ok (some t), l₁) → Calls l₁ ts l₂ → Calls l (t :: ts) l₂

namespace Calls

variable {l l₁ l₂ l' : Lexer} {ts us : List Token} {t : Token}

theorem append (h : Calls l ts l₁) (h' : Calls l₁ us l₂) : Calls l (ts ++ us) l₂ := by
  induction h with
  | done => exact h'
  | token hn _ ih => exact .token hn (ih h')

/-- The lexer has moved over a first part of what was left. -/
theorem split (h : Calls l ts l₁) :
    ∃ taken, l.rest = taken ++ l₁.rest ∧ l₁.position = l.position.advanceAll taken := by
  induction h with
  | done => exact ⟨[], rfl, rfl⟩
  | token hn _ ih =>
    obtain ⟨gap, lexeme, hy⟩ := next_yields hn
    obtain ⟨taken, hrest, hposition⟩ := ih
    refine ⟨gap ++ lexeme ++ taken, ?_, ?_⟩
    · rw [hy.split, hrest, List.append_assoc _ taken]
    · rw [hposition, hy.position, ← Position.advanceAll_append]

/-- Calls stay in a file. -/
theorem file (h : Calls l ts l₁) : l₁.file = l.file := by
  induction h with
  | done => rfl
  | token hn _ ih =>
    obtain ⟨gap, lexeme, hy⟩ := next_yields hn
    rw [ih, hy.file]

theorem length_le (h : Calls l ts l₁) : l₁.rest.length + ts.length ≤ l.rest.length := by
  induction h with
  | done => exact Nat.le_refl _
  | token hn _ ih =>
    obtain ⟨gap, lexeme, hy⟩ := next_yields hn
    have hlt := hy.length_lt
    rw [List.length_cons]
    omega

/-- Calls up to the end go on from wherever some calls lead to. -/
theorem onward (h : Calls l ts l₁) (hall : Calls l us l₂) (hend : l₂.next = (.ok none, l')) :
    ∃ later, us = ts ++ later ∧ Calls l₁ later l₂ := by
  induction h generalizing us with
  | done => exact ⟨us, rfl, hall⟩
  | token hn _ ih =>
    cases hall with
    | done => rw [hn] at hend; cases hend
    | token hn' hall =>
      rw [hn] at hn'
      cases hn'
      obtain ⟨later, rfl, hlater⟩ := ih hall
      exact ⟨later, rfl, hlater⟩

/-- Where one of the tokens is read. -/
theorem of_mem (h : Calls l ts l₁) (ht : t ∈ ts) :
    ∃ before m m', Calls l before m ∧ m.next = (.ok (some t), m') := by
  induction h with
  | done => cases ht
  | token hn _ ih =>
    rcases List.mem_cons.mp ht with rfl | ht
    · exact ⟨[], _, _, .done, hn⟩
    · obtain ⟨before, m, m', hbefore, hm⟩ := ih ht
      exact ⟨_ :: before, m, m', .token hn hbefore, hm⟩

/-- A run with enough fuel makes the calls. -/
theorem run (h : Calls l ts l₁) (hend : l₁.next = (.ok none, l')) {fuel : Nat}
    (hfuel : ts.length < fuel) (acc : List Token) :
    l.run fuel acc = .ok (acc.reverse ++ ts, l') := by
  induction h generalizing fuel acc with
  | done =>
    obtain ⟨fuel, rfl⟩ := Nat.exists_eq_add_of_lt hfuel
    simp [Lexer.run, hend]
  | token hn _ ih =>
    obtain ⟨fuel, rfl⟩ := Nat.exists_eq_add_one_of_ne_zero (Nat.ne_zero_of_lt hfuel)
    simp [Lexer.run, hn, ih hend (Nat.lt_of_succ_lt_succ hfuel)]

end Calls

variable {l l' : Lexer} {source file : String} {ts : List Token} {t : Token}

/-- A run with enough fuel makes calls up to the end. -/
theorem calls_of_run {fuel : Nat} {acc : List Token} (hfuel : l.rest.length < fuel)
    (h : run fuel l acc = .ok (ts, l')) :
    ∃ read m, Calls l read m ∧ m.next = (.ok none, l') ∧ ts = acc.reverse ++ read := by
  induction fuel generalizing l acc with
  | zero => exact absurd hfuel (Nat.not_lt_zero _)
  | succ fuel ih =>
    rw [Lexer.run] at h
    split at h
    · cases h
    · rename_i hn
      cases h
      exact ⟨[], l, .done, hn, (List.append_nil _).symm⟩
    · rename_i t m hn
      obtain ⟨gap, lexeme, hy⟩ := next_yields hn
      have hlt := hy.length_lt
      obtain ⟨read, m', hread, hend, rfl⟩ := ih (by omega) h
      exact ⟨t :: read, m', .token hn hread, hend, by simp⟩

/-- The token that ends the tokens of a text. -/
def endToken (source file : String) : Token :=
  tokenBetween file .eof "" (Position.start.advanceAll source.toList)
    (Position.start.advanceAll source.toList)

/-- **What tokenizing reads.** -/
theorem tokenize_eq_ok_iff : tokenize source file = .ok ts ↔
    ∃ read l l', Calls (start source file) read l ∧ l.next = (.ok none, l') ∧
      ts = read ++ [endToken source file] := by
  have htokens : tokenize source file = .ok ts ↔ tokens source file = .ok ts := by
    rw [tokenize]
    cases tokens source file with
    | error fault => constructor <;> (intro h; cases h)
    | ok read => constructor <;> (intro h; cases h; rfl)
  rw [htokens, tokens]
  constructor
  · intro h
    dsimp only at h
    split at h
    · cases h
    · rename_i read l hr
      cases h
      obtain ⟨read, m, hread, hend, rfl⟩ := calls_of_run (Nat.lt_succ_self _) hr
      exact ⟨read, m, l, hread, hend, rfl⟩
  · rintro ⟨read, m, l, hread, hend, rfl⟩
    have hle := hread.length_le
    have hstart : (start source file).rest = source.toList := rfl
    have hfuel : read.length < source.toList.length + 1 := by
      rw [hstart] at hle
      omega
    simp only [hread.run hend hfuel []]
    rfl

/-- **Where a token is read.** It is the one at the end, or there is a call that yields it, in front
of a part of the text. -/
theorem yields_of_tokenize (h : tokenize source file = .ok ts) (ht : t ∈ ts) :
    t = endToken source file ∨ ∃ taken l l' gap lexeme, source.toList = taken ++ l.rest ∧
      l.position = Position.start.advanceAll taken ∧ l.file = file ∧ Yields l t l' gap lexeme := by
  obtain ⟨read, l, l', hread, -, rfl⟩ := tokenize_eq_ok_iff.mp h
  rcases List.mem_append.mp ht with ht | ht
  · obtain ⟨before, m, m', hbefore, hm⟩ := hread.of_mem ht
    obtain ⟨taken, hrest, hposition⟩ := hbefore.split
    obtain ⟨gap, lexeme, hy⟩ := next_yields hm
    exact .inr ⟨taken, m, m', gap, lexeme, hrest, hposition, hbefore.file, hy⟩
  · exact .inl (List.mem_singleton.mp ht)

end Lexer

end ScriptLang
