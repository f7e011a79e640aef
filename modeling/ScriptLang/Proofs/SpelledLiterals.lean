import Mathlib.Data.List.Chain
import ScriptLang.Proofs.Concurs
import ScriptLang.Proofs.LexerCalls

/-!
# Literals as they are written

How a text is spelled in a string literal and in a template, and what the lexer makes of the
spelling.

* `stringLiteral` writes a backslash, a quote and a line feed with their escapes and everything else
  as it is. `templateLiteral` writes texts with a backslash, a backtick and a dollar sign escaped,
  and names as interpolations.
* A `Piece` is a text or a name in a template. `Piece.Proper` holds of the pieces that a template
  can be read back as: two texts next to each other would be read as one, and an empty text as none.
* `Lexer.Reads` says which words the lexer reads on its way from one state to another. The main
  statements are `tokenize_stringLiteral` and `tokenize_templateLiteral`.

A dollar sign is always escaped, so no text opens an interpolation by accident, whatever the text
after it starts with.
-/

namespace ScriptLang

/-! ### Spellings -/

/-- How a character is written in a string literal. -/
def stringSpelling (c : Char) : List Char :=
  if c = '\\' then ['\\', '\\'] else if c = '"' then ['\\', '"']
  else if c = '\n' then ['\\', 'n'] else [c]

/-- How a character is written in the text of a template. -/
def templateSpelling (c : Char) : List Char :=
  if c = '\\' then ['\\', '\\'] else if c = '\x60' then ['\\', '\x60']
  else if c = '$' then ['\\', '$'] else [c]

/-- The string literal for a text. -/
def stringLiteral (s : String) : String :=
  String.ofList ('"' :: (s.toList.flatMap stringSpelling ++ ['"']))

/-- Whether a word is a name and no reserved word. -/
def isName (x : String) : Bool :=
  match x.toList with
  | [] => false
  | c :: cs => Lexer.isWordStart c && cs.all Lexer.isWordRest && Token.wordKind x == .identifier

/-- A part of a template: a text, or a name whose value is put in. -/
inductive Piece where
  | text (s : String)
  | name (x : String)
  deriving DecidableEq

namespace Piece

/-- How a piece is written. -/
def chars : Piece → List Char
  | text s => s.toList.flatMap templateSpelling
  | name x => '$' :: '{' :: (x.toList ++ ['}'])

/-- The tokens of a piece. -/
def words : Piece → List (TokenKind × String)
  | text s => [(.fragment, s)]
  | name x => [(.interpolationStart, "$\x7b"), (.identifier, x), (.interpolationEnd, "\x7d")]

/-- Whether a piece is a text. -/
def isText : Piece → Bool
  | text _ => true
  | name _ => false

/-- A text that is not empty, or a name. -/
def IsProper : Piece → Prop
  | text s => s ≠ ""
  | name x => isName x = true

/-- Pieces with no two texts next to each other. -/
structure Proper (ps : List Piece) : Prop where
  each : ∀ p ∈ ps, p.IsProper
  apart : ps.IsChain fun p q => ¬ (p.isText ∧ q.isText)

theorem Proper.tail {p : Piece} {ps : List Piece} (h : Proper (p :: ps)) : Proper ps :=
  ⟨fun q hq => h.each q (List.mem_cons_of_mem _ hq), h.apart.tail⟩

end Piece

/-- The template literal for some pieces. -/
def templateLiteral (ps : List Piece) : String :=
  String.ofList ('\x60' :: (ps.flatMap Piece.chars ++ ['\x60']))

namespace Lexer

/-! ### Decoding -/

/-- A spelled text is decoded to the text. -/
theorem stringBody_spelled (acc : List Char) (p : Position) (s rest : List Char) :
    ∃ q, stringBody acc p (s.flatMap stringSpelling ++ '"' :: rest) =
      .ok (acc.reverse ++ s, q, rest) := by
  induction s generalizing acc p with
  | nil => exact ⟨p.advance '"', by simp [stringBody]⟩
  | cons c s ih =>
    obtain ⟨q, hq⟩ := ih (c :: acc) (p.advanceAll (stringSpelling c))
    refine ⟨q, ?_⟩
    rw [List.flatMap_cons, List.append_assoc]
    have hacc : (c :: acc).reverse ++ s = acc.reverse ++ c :: s := by simp
    rw [← hacc, ← hq]
    by_cases hslash : c = '\\'
    · subst hslash
      rfl
    by_cases hquote : c = '"'
    · subst hquote
      rfl
    by_cases hfeed : c = '\n'
    · subst hfeed
      rfl
    -- Any other character stands for itself.
    have hself : stringSpelling c = [c] := by simp [stringSpelling, hslash, hquote, hfeed]
    rw [hself, List.singleton_append, stringBody]
    · rfl
    all_goals simp_all

/-- A spelled text of a template is decoded to the text, up to what may follow one. -/
theorem fragmentBody_spelled (acc : List Char) (p : Position) (s : List Char) {rest : List Char}
    (hrest : AtDelimiter rest) :
    ∃ q, fragmentBody acc p (s.flatMap templateSpelling ++ rest) =
      .ok (acc.reverse ++ s, q, rest) := by
  induction s generalizing acc p with
  | nil =>
    obtain rfl | ⟨ds, rfl⟩ | ⟨ds, rfl⟩ := hrest
    all_goals exact ⟨p, by simp [fragmentBody]⟩
  | cons c s ih =>
    obtain ⟨q, hq⟩ := ih (c :: acc) (p.advanceAll (templateSpelling c))
    refine ⟨q, ?_⟩
    rw [List.flatMap_cons, List.append_assoc]
    have hacc : (c :: acc).reverse ++ s = acc.reverse ++ c :: s := by simp
    rw [← hacc, ← hq]
    -- Three characters are spelled as escapes, and all others stand for themselves.
    by_cases hslash : c = '\\'
    · subst hslash
      rfl
    by_cases htick : c = '\x60'
    · subst htick
      rfl
    by_cases hdollar : c = '$'
    · subst hdollar
      rfl
    have hself : templateSpelling c = [c] := by simp [templateSpelling, hslash, htick, hdollar]
    rw [hself, List.singleton_append, fragmentBody]
    · rfl
    all_goals simp_all

/-! ### One token -/

variable {file : String}

/-- What starts a word starts neither a gap nor a literal. -/
theorem ne_of_isWordStart {c d : Char} (h : isWordStart c = true) (hd : isWordStart d = false) :
    c ≠ d := by
  rintro rfl
  rw [h] at hd
  cases hd

/-- Nothing is dropped before a character that starts no gap. -/
theorem skipTrivia_of_ne {c : Char} (hspace : isSpace c = false) (hslash : c ≠ '/')
    (p : Position) (cs : List Char) : skipTrivia .none p (c :: cs) = (p, c :: cs) := by
  rw [skipTrivia]
  · simp [hspace]
  · rintro cs' h -
    exact hslash h
  · rintro cs' h -
    exact hslash h

/-- What is between the quotes of a string literal is its text. -/
theorem next_string (file : String) (s rest : List Char) (p : Position) (depth : Nat) :
    ∃ t q, next ⟨file, '"' :: (s.flatMap stringSpelling ++ '"' :: rest), p, .code, depth⟩ =
      (.ok (some t), ⟨file, rest, q, .code, depth⟩) ∧ t.word = (.string, String.ofList s) := by
  obtain ⟨q, hq⟩ := stringBody_spelled [] (p.advance '"') s rest
  refine ⟨tokenBetween file .string (String.ofList s) p q, q, ?_, rfl⟩
  simp only [next, nextCode, skipTrivia_of_ne (c := '"') rfl (by decide), hq, List.reverse_nil,
    List.nil_append]

/-- A backtick in ordinary code opens a template. -/
theorem next_opening (file : String) (rest : List Char) (p : Position) (depth : Nat) :
    ∃ t q, next ⟨file, '\x60' :: rest, p, .code, depth⟩ =
      (.ok (some t), ⟨file, rest, q, .fragment, depth + 1⟩) ∧ t.word = (.backtick, "\x60") := by
  refine ⟨tokenBetween file .backtick "\x60" p (p.advance '\x60'), p.advance '\x60', ?_, rfl⟩
  simp only [next, nextCode, skipTrivia_of_ne (c := '\x60') rfl (by decide)]
  rfl

/-- A backtick in a template closes it. -/
theorem next_closing (file : String) {mode : TemplateMode} (hmode : mode.inText = true)
    (rest : List Char) (p : Position) (depth : Nat) :
    ∃ t q, next ⟨file, '\x60' :: rest, p, mode, depth⟩ =
      (.ok (some t), ⟨file, rest, q, .code, depth - 1⟩) ∧ t.word = (.backtick, "\x60") := by
  refine ⟨tokenBetween file .backtick "\x60" p (p.advance '\x60'), p.advance '\x60', ?_, rfl⟩
  cases mode <;> first | rfl | cases hmode

/-- No spelling in a template starts with a delimiter. -/
theorem exists_templateSpelling (c : Char) :
    ∃ d ds, templateSpelling c = d :: ds ∧ d ≠ '\x60' ∧ d ≠ '$' := by
  unfold templateSpelling
  split
  · exact ⟨_, _, rfl, by decide, by decide⟩
  split
  · exact ⟨_, _, rfl, by decide, by decide⟩
  split
  · exact ⟨_, _, rfl, by decide, by decide⟩
  · exact ⟨c, [], rfl, ‹_›, ‹_›⟩

/-- The text of a template is read up to what follows it. -/
theorem next_fragment {mode : TemplateMode} (hmode : mode.inText = true) {s : List Char}
    (hs : s ≠ []) {rest : List Char} (hrest : AtDelimiter rest) (p : Position) (depth : Nat) :
    ∃ t q, next ⟨file, s.flatMap templateSpelling ++ rest, p, mode, depth⟩ =
      (.ok (some t), ⟨file, rest, q, mode, depth⟩) ∧ t.word = (.fragment, String.ofList s) := by
  obtain ⟨q, hq⟩ := fragmentBody_spelled [] p s hrest
  refine ⟨tokenBetween file .fragment (String.ofList s) p q, q, ?_, rfl⟩
  have hnext : next ⟨file, s.flatMap templateSpelling ++ rest, p, mode, depth⟩ =
      nextTemplate ⟨file, s.flatMap templateSpelling ++ rest, p, mode, depth⟩ := by
    cases mode <;> first | rfl | cases hmode
  rw [hnext]
  -- The spelling of a text starts with a character that is no delimiter.
  obtain ⟨c, cs, rfl⟩ := List.exists_cons_of_ne_nil hs
  obtain ⟨d, ds, hspelling, htick, hdollar⟩ := exists_templateSpelling c
  rw [List.flatMap_cons, hspelling] at hq ⊢
  unfold nextTemplate
  split
  case h_1 h => cases h
  case h_2 h => exact absurd (List.cons.inj h).1 htick
  case h_3 h => exact absurd (List.cons.inj h).1 hdollar
  case h_4 =>
    dsimp only
    rw [hq]
    rfl

/-- The mark before a name in a template. -/
theorem next_interpolation {mode : TemplateMode} (hmode : mode.inText = true) (rest : List Char)
    (p : Position) (depth : Nat) :
    ∃ t q, next ⟨file, '$' :: '{' :: rest, p, mode, depth⟩ =
      (.ok (some t), ⟨file, rest, q, .interpolation, depth⟩) ∧
        t.word = (.interpolationStart, "$\x7b") := by
  refine ⟨tokenBetween file .interpolationStart "$\x7b" p (p.advanceAll ['$', '{']),
    p.advanceAll ['$', '{'], ?_, rfl⟩
  cases mode <;> first | rfl | cases hmode

/-- The brace after a name in a template. -/
theorem next_interpolationEnd (rest : List Char) (p : Position) (depth : Nat) :
    ∃ t q, next ⟨file, '}' :: rest, p, .interpolation, depth⟩ =
      (.ok (some t), ⟨file, rest, q, .afterInterpolation, depth⟩) ∧
        t.word = (.interpolationEnd, "\x7d") := by
  refine ⟨tokenBetween file .interpolationEnd "\x7d" p (p.advance '}'), p.advance '}', ?_, rfl⟩
  simp only [next, nextCode, skipTrivia_of_ne (c := '}') rfl (by decide)]
  rfl

/-- A name is read up to a character that no word goes on with. -/
theorem next_name {x : String} (hx : isName x = true) {d : Char} (hd : isWordRest d = false)
    (rest : List Char) (p : Position) (depth : Nat) :
    ∃ t q, next ⟨file, x.toList ++ d :: rest, p, .interpolation, depth⟩ =
      (.ok (some t), ⟨file, d :: rest, q, .interpolation, depth⟩) ∧ t.word = (.identifier, x) := by
  unfold isName at hx
  split at hx
  case h_1 => cases hx
  case h_2 c cs hchars =>
    obtain ⟨⟨hstart, hrest⟩, hkind⟩ : (isWordStart c = true ∧ cs.all isWordRest = true) ∧
        Token.wordKind x = .identifier := by simpa using hx
    have hne (b : Char) (hb : isWordStart b = false) : c ≠ b := ne_of_isWordStart hstart hb
    have hspace : isSpace c = false := by
      simp [isSpace, hne ' ' rfl, hne '\t' rfl, hne '\r' rfl, hne '\n' rfl]
    -- The word goes on for as long as characters do that may go on with it.
    have hlength : wordLength (c :: (cs ++ d :: rest)) = cs.length + 1 := by
      have htake : (cs ++ d :: rest).takeWhile isWordRest = cs := by
        rw [List.takeWhile_append_of_pos (by simpa using hrest)]
        simp [hd]
      simp only [wordLength, hstart, if_true, htake]
      exact Nat.add_comm _ _
    have hvalue : String.ofList (c :: cs) = x := by rw [← hchars, String.ofList_toList]
    refine ⟨tokenBetween file .identifier x p (p.advanceAll (c :: cs)), p.advanceAll (c :: cs), ?_,
      rfl⟩
    rw [hchars, List.cons_append]
    simp only [next, nextCode, skipTrivia_of_ne hspace (hne '/' rfl)]
    split
    case h_1 h => cases h
    case h_2 h => exact absurd (List.cons.inj h).1 (hne '"' rfl)
    case h_3 h =>
      obtain ⟨rfl, rfl⟩ := List.cons.inj h
      simp [hlength, take, hvalue, hkind]

/-! ### Several tokens -/

/-- The lexer reads tokens of these words, and is where it is said then. -/
inductive Reads : Lexer → List (TokenKind × String) → Lexer → Prop
  | done {l : Lexer} : Reads l [] l
  | token {l l₁ l₂ : Lexer} {t : Token} {ws : List (TokenKind × String)} :
    l.next = (.ok (some t), l₁) → Reads l₁ ws l₂ → Reads l (t.word :: ws) l₂

namespace Reads

variable {l l₁ l₂ : Lexer} {ws us : List (TokenKind × String)} {w : TokenKind × String}

/-- One token, known by its word. -/
theorem cons {t : Token} (h : l.next = (.ok (some t), l₁)) (hw : t.word = w)
    (hs : Reads l₁ ws l₂) : Reads l (w :: ws) l₂ := hw ▸ .token h hs

theorem append (h : Reads l ws l₁) (h' : Reads l₁ us l₂) : Reads l (ws ++ us) l₂ := by
  induction h with
  | done => exact h'
  | token hn _ ih => exact .token hn (ih h')

/-- The calls that read the words. -/
theorem calls (h : Reads l ws l₁) : ∃ ts, Calls l ts l₁ ∧ ts.map Token.word = ws := by
  induction h with
  | done => exact ⟨[], .done, rfl⟩
  | token hn _ ih =>
    obtain ⟨ts, hcalls, hwords⟩ := ih
    exact ⟨_ :: ts, .token hn hcalls, congrArg _ hwords⟩

end Reads

/-- What the lexer reads up to the end of a text are the tokens of the text, before the one that
ends it. -/
theorem tokenize_of_reads {source : String} {ws : List (TokenKind × String)} {l l' : Lexer}
    (h : Reads (start source file) ws l) (hend : l.next = (.ok none, l')) :
    ∃ ts stop, tokenize source file = .ok (ts ++ [stop]) ∧ ts.map Token.word = ws ∧
      stop.word = (.eof, "") := by
  obtain ⟨ts, hcalls, hwords⟩ := h.calls
  exact ⟨ts, endToken source file, tokenize_eq_ok_iff.mpr ⟨ts, l, l', hcalls, hend, rfl⟩, hwords,
    rfl⟩

/-- At the end of the text ordinary code has no further token. -/
theorem next_end (file : String) (p : Position) (depth : Nat) :
    next ⟨file, [], p, .code, depth⟩ = (.ok none, ⟨file, [], p, .code, depth⟩) := rfl

/-- **String literals.** A string literal is one token, whose value is the text. -/
theorem tokenize_stringLiteral (s file : String) :
    ∃ ts stop, tokenize (stringLiteral s) file = .ok (ts ++ [stop]) ∧
      ts.map Token.word = [(.string, s)] ∧ stop.word = (.eof, "") := by
  obtain ⟨t, q, hnext, hword⟩ := next_string file s.toList [] .start 0
  have hstart : start (stringLiteral s) file =
      ⟨file, '"' :: (s.toList.flatMap stringSpelling ++ ['"']), .start, .code, 0⟩ := by
    simp [start, stringLiteral]
  rw [String.ofList_toList] at hword
  refine tokenize_of_reads ?_ (next_end file q 0)
  rw [hstart]
  exact .cons hnext hword .done

/-- After proper pieces and before a backtick the text of a template may end. -/
theorem atDelimiter_pieces {s : String} {ps : List Piece} (h : Piece.Proper (.text s :: ps))
    (rest : List Char) : AtDelimiter (ps.flatMap Piece.chars ++ '\x60' :: rest) := by
  cases ps with
  | nil => exact .inr (.inl ⟨rest, rfl⟩)
  | cons p ps =>
    cases p with
    | text s' => exact absurd ⟨rfl, rfl⟩ (List.isChain_cons_cons.mp h.apart).1
    | name x => exact .inr (.inr ⟨_, rfl⟩)

/-- The pieces of a template are read one after the other. -/
theorem reads_pieces {ps : List Piece} (h : Piece.Proper ps) {mode : TemplateMode}
    (hmode : mode.inText = true) (rest : List Char) (p : Position) (depth : Nat) :
    ∃ q mode', Reads ⟨file, ps.flatMap Piece.chars ++ '\x60' :: rest, p, mode, depth⟩
      (ps.flatMap Piece.words) ⟨file, '\x60' :: rest, q, mode', depth⟩ ∧ mode'.inText = true := by
  induction ps generalizing mode p with
  | nil => exact ⟨p, mode, .done, hmode⟩
  | cons piece ps ih =>
    rw [List.flatMap_cons, List.flatMap_cons, List.append_assoc]
    have hpiece := h.each piece List.mem_cons_self
    cases piece with
    | text s =>
      have hs : s.toList ≠ [] := fun hnil => hpiece (String.toList_eq_nil_iff.mp hnil)
      obtain ⟨t, q, hnext, hword⟩ := next_fragment hmode hs (atDelimiter_pieces h rest) p depth
      obtain ⟨q', mode', hreads, hmode'⟩ := ih h.tail hmode q
      rw [String.ofList_toList] at hword
      exact ⟨q', mode', .cons hnext hword hreads, hmode'⟩
    | name x =>
      -- An interpolation is three tokens: its mark, the name and its brace.
      obtain ⟨t₁, q₁, hopen, hword₁⟩ := next_interpolation hmode
        (x.toList ++ '}' :: (ps.flatMap Piece.chars ++ '\x60' :: rest)) p depth
      obtain ⟨t₂, q₂, hname, hword₂⟩ := next_name hpiece (d := '}') rfl
        (ps.flatMap Piece.chars ++ '\x60' :: rest) q₁ depth
      obtain ⟨t₃, q₃, hclose, hword₃⟩ :=
        next_interpolationEnd (ps.flatMap Piece.chars ++ '\x60' :: rest) q₂ depth
      obtain ⟨q', mode', hreads, hmode'⟩ := @ih h.tail .afterInterpolation rfl q₃
      refine ⟨q', mode', ?_, hmode'⟩
      have hchars : (Piece.name x).chars ++ (ps.flatMap Piece.chars ++ '\x60' :: rest) =
          '$' :: '{' :: (x.toList ++ '}' :: (ps.flatMap Piece.chars ++ '\x60' :: rest)) := by
        simp [Piece.chars]
      rw [hchars]
      exact .cons hopen hword₁ (.cons hname hword₂ (.cons hclose hword₃ hreads))

/-- **Template literals.** A template literal is read as its pieces between backticks. -/
theorem tokenize_templateLiteral {ps : List Piece} (h : Piece.Proper ps) (file : String) :
    ∃ ts stop, tokenize (templateLiteral ps) file = .ok (ts ++ [stop]) ∧
      ts.map Token.word =
        (.backtick, "\x60") :: (ps.flatMap Piece.words ++ [(.backtick, "\x60")]) ∧
      stop.word = (.eof, "") := by
  obtain ⟨t, q, hopen, hword⟩ := next_opening file (ps.flatMap Piece.chars ++ ['\x60']) .start 0
  obtain ⟨q₁, mode, hpieces, hmode⟩ := @reads_pieces file _ h .fragment rfl [] q 1
  obtain ⟨t₂, q₂, hclose, hword₂⟩ := next_closing file hmode [] q₁ 1
  have hstart : start (templateLiteral ps) file =
      ⟨file, '\x60' :: (ps.flatMap Piece.chars ++ ['\x60']), .start, .code, 0⟩ := by
    simp [start, templateLiteral]
  refine tokenize_of_reads ?_ (next_end file q₂ 0)
  rw [hstart]
  exact .cons hopen hword (hpieces.append (.cons hclose hword₂ .done))

end Lexer

end ScriptLang
