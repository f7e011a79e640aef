import Mathlib
import ScriptLang.Proofs.LosslessTokens

/-!
# Modes and depth of templates

The lexer follows templates by a mode and a counter, which are changed in different places. Outside
of an interpolation the one follows from the other. A backtick inside an interpolation breaks this:
it opens one more template, and when that is closed, the lexer is in ordinary code with a template
still counted as open. This file says what holds of the two even so.

* `Lexer.Moves` is the machine of the modes: what a token does to mode and counter. Every call that
  yields a token makes one of these moves (`Lexer.Yields.moves`).
* `Lexer.History` lists the tokens that successful calls have yielded since the beginning of a text,
  each with the mode in which it was read; calls at the end of the text yield none.
* `Lexer.Tracked` is the invariant. Its clauses hold each other up: that a closing backtick finds
  something to close needs `opened`, and that a brace ends an interpolation only where one was
  begun needs `inside`, by which the mode can be told from the tokens alone. A move keeps the
  invariant (`Lexer.Tracked.move`), hence so does every call.
* **Main statement**, `templates_are_tracked`: after any number of successful calls the lexer is
  tracked, and the next token is one that belongs there (`Lexer.Follows`).
-/

namespace ScriptLang

/-- Whether a token delimits a template or an interpolation. -/
def TokenKind.isDelimiter : TokenKind → Bool
  | .backtick | .interpolationStart | .interpolationEnd => true
  | _ => false

namespace Lexer

/-! ### Moves -/

/-- **Moves.** What a token of a kind does to the mode and to the number of open templates. -/
inductive Moves : TemplateMode × Nat → TokenKind → TemplateMode × Nat → Prop
  /-- A backtick in ordinary code, or in an interpolation, opens a template. -/
  | opening {mode : TemplateMode} {depth : Nat} : mode.inText = false →
      Moves (mode, depth) .backtick (.fragment, depth + 1)
  /-- A backtick in the text of a template closes it. -/
  | closing {mode : TemplateMode} {depth : Nat} : mode.inText = true →
      Moves (mode, depth) .backtick (.code, depth - 1)
  | entering {mode : TemplateMode} {depth : Nat} : mode.inText = true →
      Moves (mode, depth) .interpolationStart (.interpolation, depth)
  | leaving {depth : Nat} :
      Moves (.interpolation, depth) .interpolationEnd (.afterInterpolation, depth)
  | staying {stage : TemplateMode × Nat} {kind : TokenKind} : kind.isDelimiter = false →
      Moves stage kind stage

variable {stage stage' : TemplateMode × Nat} {rest gap lexeme : List Char} {kind : TokenKind}
  {value : String}

/-- Of the lexemes of ordinary code only the backtick delimits templates. -/
theorem CodeLexeme.eq_backtick_or (h : CodeLexeme rest lexeme (kind, value)) :
    kind = .backtick ∨ kind.isDelimiter = false := by
  cases h with
  | string | number => exact .inr rfl
  | word =>
    right
    unfold Token.wordKind
    repeat' split
    all_goals rfl
  | mark _ _ hmark =>
    have hall : ∀ m ∈ marks, m.2 = .backtick ∨ m.2.isDelimiter = false := by decide
    exact hall _ (List.mem_of_find?_eq_some hmark)

theorem moves_onMark {mode : TemplateMode} (depth : Nat) (hmode : mode.inText = false)
    (hkind : kind = .backtick ∨ kind.isDelimiter = false) :
    Moves (mode, depth) (onMark mode depth kind).1 (onMark mode depth kind).2 := by
  unfold onMark
  split
  case isTrue => exact .opening hmode
  case isFalse htick =>
    split
    case isTrue hbrace =>
      obtain ⟨-, rfl⟩ := hbrace
      exact .leaving
    case isFalse => exact .staying (hkind.resolve_left htick)

theorem Scans.moves (h : Scans rest stage gap lexeme (kind, value) stage') :
    Moves stage kind stage' := by
  cases h with
  | @code _ depth _ _ _ _ _ _ hmode _ _ hlexeme hmark =>
    have hmoves := moves_onMark depth hmode hlexeme.eq_backtick_or
    rwa [hmark] at hmoves
  | closing hmode => exact .closing hmode
  | opening hmode => exact .entering hmode
  | text => exact .staying rfl

/-- One more template is opened at most. -/
theorem Moves.depth_le (h : Moves stage kind stage') : stage'.2 ≤ stage.2 + 1 := by
  cases h with
  | opening => exact Nat.le_refl _
  | closing => exact (Nat.sub_le ..).trans (Nat.le_succ _)
  | entering | leaving | staying => exact Nat.le_succ _

/-- A closing backtick takes a template away. -/
theorem Moves.depth_of_closing (h : Moves stage .backtick stage') (hmode : stage.1.inText = true) :
    stage'.2 = stage.2 - 1 := by
  cases h with
  | opening hcode => rw [hcode] at hmode; cases hmode
  | closing => rfl
  | staying hdelimiter => cases hdelimiter

/-- An interpolation ends only where one is under way. -/
theorem Moves.mode_of_leaving (h : Moves stage .interpolationEnd stage') :
    stage.1 = .interpolation := by
  cases h with
  | leaving => rfl
  | staying hdelimiter => cases hdelimiter

/-! ### What was read -/

/-- A token, and the mode in which it was read. -/
structure Emission where
  mode : TemplateMode
  token : Token

namespace Emission

/-- Whether it is a backtick that opens a template. -/
def opens (e : Emission) : Bool := e.token.kind == .backtick && !e.mode.inText

/-- Whether it is a backtick that closes a template. -/
def closes (e : Emission) : Bool := e.token.kind == .backtick && e.mode.inText

end Emission

/-- The number of backticks that opened a template, less the number of those that closed one. -/
def balance (es : List Emission) : Int := es.countP Emission.opens - es.countP Emission.closes

/-- The last delimiter of a template or an interpolation. -/
def lastDelimiter (es : List Emission) : Option TokenKind :=
  ((es.map (·.token.kind)).filter TokenKind.isDelimiter).getLast?

/-- **Unnested.** No backtick was read in an interpolation. -/
def Unnested (es : List Emission) : Prop :=
  ∀ e ∈ es, e.mode = .interpolation → e.token.kind ≠ .backtick

section

variable (es : List Emission) (e : Emission)

theorem balance_snoc : balance (es ++ [e]) =
    balance es + (if e.opens then 1 else 0) - (if e.closes then 1 else 0) := by
  simp only [balance, List.countP_append, List.countP_singleton]
  split <;> split <;> omega

theorem lastDelimiter_snoc : lastDelimiter (es ++ [e]) =
    if e.token.kind.isDelimiter then some e.token.kind else lastDelimiter es := by
  unfold lastDelimiter
  split <;> simp [List.filter_append, *]

theorem unnested_snoc : Unnested (es ++ [e]) ↔
    Unnested es ∧ (e.mode = .interpolation → e.token.kind ≠ .backtick) := by
  simp [Unnested, or_imp, forall_and]

end

/-- **History.** The lexer is here after calls from the beginning of a text that have all succeeded,
and these are the tokens they have yielded. -/
inductive History (source : String) : List Emission → Lexer → Prop
  | start (file : String) : History source [] (Lexer.start source file)
  | token {es : List Emission} {l l' : Lexer} {t : Token} : History source es l →
      l.next = (.ok (some t), l') → History source (es ++ [⟨l.mode, t⟩]) l'
  | atEnd {es : List Emission} {l l' : Lexer} : History source es l →
      l.next = (.ok none, l') → History source es l'

/-! ### The invariant -/

/-- **Tracked.** What is known of mode and depth after these tokens. -/
structure Tracked (es : List Emission) (stage : TemplateMode × Nat) : Prop where
  /-- The depth counts what was opened and not closed. -/
  balanced : (stage.2 : Int) = balance es
  /-- Away from ordinary code there is an open template. -/
  opened : stage.1 ≠ .code → 1 ≤ stage.2
  /-- The tokens tell where an interpolation is under way. -/
  inside : stage.1 = .interpolation ↔ lastDelimiter es = some .interpolationStart
  /-- Without a backtick in an interpolation, the mode tells the depth. -/
  unnested : Unnested es → (stage.2 = 0 ↔ stage.1 = .code) ∧ stage.2 ≤ 1

theorem tracked_start : Tracked [] (.code, 0) where
  balanced := rfl
  opened h := absurd rfl h
  inside := by simp [lastDelimiter]
  unnested _ := by simp

theorem ne_code_of_inText {mode : TemplateMode} (h : mode.inText = true) : mode ≠ .code := by
  rintro rfl
  cases h

section

variable {es : List Emission} {mode : TemplateMode} {depth : Nat} {t : Token}

theorem Tracked.depth_eq_one (h : Tracked es stage) (hmode : stage.1 ≠ .code)
    (hes : Unnested es) : stage.2 = 1 :=
  Nat.le_antisymm (h.unnested hes).2 (h.opened hmode)

/-- **A move keeps the invariant.** -/
theorem Tracked.move (h : Tracked es (mode, depth)) (hmove : Moves (mode, depth) t.kind stage') :
    Tracked (es ++ [⟨mode, t⟩]) stage' := by
  have hbalanced : (depth : Int) = balance es := h.balanced
  generalize hkind : t.kind = kind at hmove
  cases hmove with
  | opening hmode =>
    refine ⟨?_, fun _ => Nat.le_add_left .., ?_, fun hes => ?_⟩
    · simp [balance_snoc, Emission.opens, Emission.closes, hkind, hmode, hbalanced]
    · simp [lastDelimiter_snoc, hkind, TokenKind.isDelimiter]
    · -- The backtick is not in an interpolation, so it is in ordinary code.
      obtain ⟨hes, hmode'⟩ := (unnested_snoc es ⟨mode, t⟩).mp hes
      have hcode : mode = .code := by cases mode <;> simp_all [TemplateMode.inText]
      have hzero : depth = 0 := (h.unnested hes).1.mpr hcode
      simp [hzero]
  | closing hmode =>
    have hne : mode ≠ .code := ne_code_of_inText hmode
    -- So the depth is not cut off at zero, and one backtick less is open.
    have hpos : 1 ≤ depth := h.opened hne
    refine ⟨?_, fun hcode => absurd rfl hcode, ?_, fun hes => ?_⟩
    · simp [balance_snoc, Emission.opens, Emission.closes, hkind, hmode, ← hbalanced, hpos]
    · simp [lastDelimiter_snoc, hkind, TokenKind.isDelimiter]
    · have hone : depth = 1 := h.depth_eq_one hne ((unnested_snoc es ⟨mode, t⟩).mp hes).1
      simp [hone]
  | entering hmode =>
    have hne : mode ≠ .code := ne_code_of_inText hmode
    refine ⟨?_, fun _ => h.opened hne, ?_, fun hes => ?_⟩
    · simp [balance_snoc, Emission.opens, Emission.closes, hkind, hbalanced]
    · simp [lastDelimiter_snoc, hkind, TokenKind.isDelimiter]
    · have hone : depth = 1 := h.depth_eq_one hne ((unnested_snoc es ⟨mode, t⟩).mp hes).1
      simp [hone]
  | leaving =>
    refine ⟨?_, fun _ => h.opened (by simp), ?_, fun hes => ?_⟩
    · simp [balance_snoc, Emission.opens, Emission.closes, hkind, hbalanced]
    · simp [lastDelimiter_snoc, hkind, TokenKind.isDelimiter]
    · have hone : depth = 1 :=
        h.depth_eq_one (by simp) ((unnested_snoc es ⟨.interpolation, t⟩).mp hes).1
      simp [hone]
  | staying hdelimiter =>
    have htick : kind ≠ .backtick := by rintro rfl; cases hdelimiter
    refine ⟨?_, h.opened, ?_, fun hes => h.unnested ((unnested_snoc es ⟨mode, t⟩).mp hes).1⟩
    · simp [balance_snoc, Emission.opens, Emission.closes, hkind, htick, hbalanced]
    · simpa [lastDelimiter_snoc, hkind, hdelimiter] using h.inside

end

/-! ### Calls -/

section

variable {source : String} {es : List Emission} {l l' : Lexer} {t : Token}

theorem Yields.moves (h : Yields l t l' gap lexeme) : Moves l.stage t.kind l'.stage :=
  h.scans.moves

/-- A call that yields a token moves on. -/
theorem Yields.offset_lt (h : Yields l t l' gap lexeme) :
    l.position.offset < l'.position.offset := by
  obtain ⟨c, cs, rfl⟩ := List.exists_cons_of_ne_nil h.scans.lexeme_ne
  have hpos := c.utf8Size_pos
  rw [h.position, Position.offset_advanceAll, String.ofList_append, String.ofList_cons]
  simp only [String.utf8ByteSize_append, String.utf8ByteSize_singleton]
  omega

/-- After successful calls the lexer has moved over a first part of the text. -/
theorem History.split (h : History source es l) :
    ∃ taken : String, source = taken ++ String.ofList l.rest ∧
      l.position.offset = taken.utf8ByteSize := by
  induction h with
  | start => exact ⟨"", by simp [Lexer.start], rfl⟩
  | token _ hn ih =>
    obtain ⟨gap, lexeme, hy⟩ := next_yields hn
    obtain ⟨taken, hsource, hoffset⟩ := ih
    refine ⟨taken ++ String.ofList (gap ++ lexeme), ?_, ?_⟩
    · rw [hsource, hy.split, String.append_assoc, ← String.ofList_append]
    · rw [hy.position, Position.offset_advanceAll, hoffset, String.utf8ByteSize_append]
  | @atEnd _ l _ _ hn ih =>
    obtain ⟨-, -, rfl⟩ := next_ends hn
    obtain ⟨taken, hsource, hoffset⟩ := ih
    refine ⟨taken ++ String.ofList l.rest, by simpa using hsource, ?_⟩
    rw [position_ended, Position.offset_advanceAll, hoffset, String.utf8ByteSize_append]

/-- **Every call keeps the invariant.** -/
theorem History.tracked (h : History source es l) : Tracked es l.stage := by
  -- The last call is a move, or one at the end of the text, where no mode changes.
  induction h with
  | start => exact tracked_start
  | token _ hn ih =>
    obtain ⟨gap, lexeme, hy⟩ := next_yields hn
    exact ih.move hy.moves
  | atEnd _ hn ih =>
    obtain ⟨-, -, rfl⟩ := next_ends hn
    rwa [stage_ended]

/-- A template that is counted took at least one byte to open. -/
theorem History.depth_le_offset (h : History source es l) : l.depth ≤ l.position.offset := by
  induction h with
  | start => exact Nat.le_refl _
  | token _ hn ih =>
    obtain ⟨gap, lexeme, hy⟩ := next_yields hn
    exact (hy.moves.depth_le.trans (Nat.succ_le_succ ih)).trans hy.offset_lt
  | atEnd _ hn ih =>
    obtain ⟨-, -, rfl⟩ := next_ends hn
    rw [position_ended, Position.offset_advanceAll]
    exact ih.trans (Nat.le_add_right ..)

/-- **Follows.** What is known of a call that yields a token after these. -/
structure Follows (source : String) (es : List Emission) (l : Lexer) (t : Token) (l' : Lexer) :
    Prop where
  advances : l.position.offset < l'.position.offset
  /-- A template that is closed was open. -/
  closing : t.kind = .backtick → l.inText = true → l'.depth + 1 = l.depth
  /-- An interpolation that ends was begun, and no template was opened or closed in it. -/
  leaving : t.kind = .interpolationEnd → lastDelimiter es = some .interpolationStart
  /-- The text of a template is the text between two different places. -/
  text : t.kind = .fragment → ∃ text, text ≠ "" ∧
    Span.Cuts ⟨l.position.offset, l'.position.offset⟩ source text ∧ t.Spells text.toList

theorem History.follows (h : History source es l) (hn : l.next = (.ok (some t), l')) :
    Follows source es l t l' := by
  obtain ⟨gap, lexeme, hy⟩ := next_yields hn
  have htracked := h.tracked
  refine ⟨hy.offset_lt, fun hkind htext => ?_, fun hkind => ?_, fun hkind => ?_⟩
  · -- In the text of a template the lexer is away from ordinary code.
    have hpos : 1 ≤ l.depth := htracked.opened (ne_code_of_inText htext)
    have hdepth : l'.depth = l.depth - 1 := (hkind ▸ hy.moves).depth_of_closing htext
    omega
  · exact htracked.inside.mp (hkind ▸ hy.moves).mode_of_leaving
  · obtain ⟨taken, hsource, hoffset⟩ := h.split
    -- Before the text of a template no gap is dropped, so the lexeme is all that is moved over.
    obtain rfl : gap = [] := hy.noGap (.inr hkind)
    refine ⟨String.ofList lexeme, ?_, ⟨taken, String.ofList l'.rest, ?_, hoffset, ?_⟩, ?_⟩
    · intro hempty
      exact hy.scans.lexeme_ne (by simpa using congrArg String.toList hempty)
    · rw [hsource, hy.split]
      simp [String.append_assoc]
    · rw [hy.position, Position.offset_advanceAll, hoffset, String.utf8ByteSize_append,
        List.nil_append]
    · simpa using hy.scans.spells

end

end Lexer

open Lexer

/-- **Templates are tracked.** After any number of successful calls, mode and depth are as the
tokens say, no more templates are counted than bytes were read, and the next token is one that
belongs where the lexer stands. -/
theorem templates_are_tracked {source : String} {es : List Emission} {l : Lexer}
    (h : History source es l) : Tracked es l.stage ∧ l.depth ≤ l.position.offset ∧
      ∀ t l', l.next = (.ok (some t), l') → Follows source es l t l' :=
  ⟨h.tracked, h.depth_le_offset, fun _ _ => h.follows⟩

/-- A template in an interpolation. When it is closed, the outer one is still counted as open, and
the lexer is in ordinary code. The brace there ends no interpolation. Up to the inner template the
mode tells the depth. -/
theorem templates_are_tracked_nested :
    (∃ es l l' t, History "`$\x7b`a`\x7d" es l ∧
      es.map (·.token.kind) =
        [.backtick, .interpolationStart, .backtick, .fragment, .backtick] ∧
      l.stage = (.code, 1) ∧ l.next = (.ok (some t), l') ∧ t.kind = .rightBrace ∧
      Tracked es l.stage ∧ Follows "`$\x7b`a`\x7d" es l t l') ∧
    ∃ es l, History "`$\x7b`a`\x7d" es l ∧ Unnested es ∧ l.stage = (.interpolation, 1) ∧
      (l.depth = 0 ↔ l.mode = .code) := by
  constructor
  · have hrun : ∃ es l l' t, History "`$\x7b`a`\x7d" es l ∧
        es.map (·.token.kind) =
          [.backtick, .interpolationStart, .backtick, .fragment, .backtick] ∧
        l.stage = (.code, 1) ∧ l.next = (.ok (some t), l') ∧ t.kind = .rightBrace :=
      ⟨_, _, _, _, .token (.token (.token (.token (.token (.start "main") rfl) rfl) rfl) rfl) rfl,
        rfl, rfl, rfl, rfl⟩
    obtain ⟨es, l, l', t, h, hkinds, hstage, hnext, hkind⟩ := hrun
    have htracked := templates_are_tracked h
    exact ⟨es, l, l', t, h, hkinds, hstage, hnext, hkind, htracked.1, htracked.2.2 t l' hnext⟩
  · have hrun : ∃ es l, History "`$\x7b`a`\x7d" es l ∧ Unnested es ∧
        l.stage = (.interpolation, 1) :=
      ⟨_, _, .token (.token (.start "main") rfl) rfl, by unfold Unnested; decide, rfl⟩
    obtain ⟨es, l, h, hes, hstage⟩ := hrun
    exact ⟨es, l, h, hes, hstage, ((templates_are_tracked h).1.unnested hes).1⟩

end ScriptLang
