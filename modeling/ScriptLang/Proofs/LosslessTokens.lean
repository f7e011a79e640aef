import ScriptLang.Proofs.LexerCalls

/-!
# Tokens lose nothing

The tokens of a text and the gaps between them make up the text again, byte for byte.

* `Span.Cuts` says what text a span of bytes cuts out of a source; both ends of the span stand
  between characters.
* `Covers` is the relation of a source and the tokens of a first part of it: the spans are in order,
  each token spells what its span cuts out, and what stands between two tokens is a gap. One more
  token keeps it (`Covers.snoc`).
* `Lexer.Stands` ties `Covers` to the lexer that has read the tokens. Every call keeps it
  (`Lexer.Stands.yields`), hence so does every run.
* **Main statement**, `tokenize_lossless`: the tokens of a text that is short enough for its offsets
  to be kept are `Lossless`, that is, they cover all of it.
-/

namespace ScriptLang

/-- A span cuts a text out of a source: the text stands between the two offsets. -/
def Span.Cuts (span : Span) (source text : String) : Prop :=
  ∃ before after : String, source = before ++ text ++ after ∧
    span.start = before.utf8ByteSize ∧ span.stop = (before ++ text).utf8ByteSize

/-- The offset of a place after some characters. -/
theorem Position.offset_advanceAll (p : Position) (cs : List Char) :
    (p.advanceAll cs).offset = p.offset + (String.ofList cs).utf8ByteSize := by
  induction cs generalizing p with
  | nil => simp
  | cons c cs ih =>
    have hc : (p.advance c).offset = p.offset + c.utf8Size := by
      unfold Position.advance
      split <;> rfl
    rw [Position.advanceAll_cons, ih, hc, String.ofList_cons, String.utf8ByteSize_append,
      String.utf8ByteSize_singleton, Nat.add_assoc]

namespace Token

/-- Where the last of some tokens ends; the beginning of the text if there is none. -/
def reach (ts : List Token) : Nat := (ts.getLast?.map (·.span.stop)).getD 0

/-- Whether the text of a template follows some tokens. -/
def beforeText (ts : List Token) : Bool := ts.foldl (fun inText t => t.kind.textAfter inText) false

@[simp] theorem reach_snoc (ts : List Token) (t : Token) : reach (ts ++ [t]) = t.span.stop := by
  simp [reach]

@[simp] theorem beforeText_snoc (ts : List Token) (t : Token) :
    beforeText (ts ++ [t]) = t.kind.textAfter (beforeText ts) := by
  simp [beforeText]

/-- **A token and what its span cuts out of the source.** Only the token at the end may be empty. -/
def Stands (source : String) (t : Token) : Prop :=
  ∃ text, t.span.Cuts source text ∧ t.Spells text.toList ∧
    (t.kind ≠ .eof → t.span.start < t.span.stop)

/-- **What stands between some tokens and the next one.** It is a gap, and nothing at all next to
the text of a template: before and after such text, after a backtick that opens a template, and
after an interpolation. -/
def Follows (source : String) (before : List Token) (t : Token) : Prop :=
  ∃ gap, Span.Cuts ⟨reach before, t.span.start⟩ source gap ∧
    IsGap (t.kind = .eof) gap.toList ∧ (beforeText before ∨ t.kind = .fragment → gap = "")

end Token

/-- The tokens of a first part of a source. -/
structure Covers (source : String) (ts : List Token) : Prop where
  /-- The spans are in order and do not overlap. -/
  ordered : ts.Pairwise fun a b => a.span.stop ≤ b.span.start
  /-- Each token is what its span cuts out. -/
  stands : ∀ t ∈ ts, t.Stands source
  /-- Only gaps are left out. -/
  follows : ∀ before t after, ts = before ++ t :: after → t.Follows source before

/-- All tokens of a source: the last one is the only `eof`, an empty one at the end of the text. -/
structure Lossless (source : String) (ts : List Token) : Prop extends Covers source ts where
  ended : ∃ init last, ts = init ++ [last] ∧ (∀ t ∈ init, t.kind ≠ .eof) ∧ last.kind = .eof ∧
    last.span = .point source.utf8ByteSize

namespace Covers

variable {source : String} {ts : List Token} {t : Token}

theorem nil : Covers source [] where
  ordered := .nil
  stands := nofun
  follows before t after h := by simp at h

/-- No token ends after the last one. -/
theorem stop_le_reach (h : Covers source ts) {a : Token} (ha : a ∈ ts) :
    a.span.stop ≤ Token.reach ts := by
  obtain ⟨init, last, rfl⟩ : ∃ init last, ts = init ++ [last] :=
    ⟨_, _, (List.dropLast_concat_getLast (List.ne_nil_of_mem ha)).symm⟩
  rw [Token.reach_snoc]
  rcases List.mem_append.1 ha with ha | ha
  · have hle := (List.pairwise_append.1 h.ordered).2.2 a ha last (by simp)
    obtain ⟨text, ⟨before, after, -, h₁, h₂⟩, -⟩ := h.stands last (by simp)
    simp only [String.utf8ByteSize_append] at h₂
    omega
  · obtain rfl := List.mem_singleton.1 ha
    exact Nat.le_refl _

/-- One more token. -/
theorem snoc (h : Covers source ts) (ht : t.Stands source) (hf : t.Follows source ts) :
    Covers source (ts ++ [t]) where
  ordered := by
    refine List.pairwise_append.2 ⟨h.ordered, List.pairwise_singleton .., ?_⟩
    rintro a ha b hb
    obtain rfl := List.mem_singleton.1 hb
    obtain ⟨gap, ⟨before, after, -, h₁, h₂⟩, -⟩ := hf
    have := h.stop_le_reach ha
    simp only [String.utf8ByteSize_append] at h₁ h₂
    omega
  stands a ha := by
    rcases List.mem_append.1 ha with ha | ha
    · exact h.stands a ha
    · rwa [List.mem_singleton.1 ha]
  follows before a after he := by
    -- The token in question is one of the old ones or the new one.
    rcases List.append_eq_append_iff.1 he with ⟨mid, rfl, hm⟩ | ⟨mid, rfl, hm⟩
    · cases mid with
      | nil =>
        obtain ⟨rfl, -⟩ := List.cons.inj hm
        simpa using hf
      | cons b mid => simp at hm
    · cases mid with
      | nil =>
        obtain ⟨rfl, -⟩ := List.cons.inj hm
        simpa using hf
      | cons b mid =>
        obtain ⟨rfl, -⟩ := List.cons.inj hm
        exact h.follows before a mid rfl

end Covers

namespace Lexer

/-- **The lexer that has read some tokens.** They cover what it has taken from the source, up to
where it stands. -/
structure Stands (source : String) (ts : List Token) (l : Lexer) : Prop where
  split : ∃ taken : String, source = taken ++ String.ofList l.rest ∧
    l.position.offset = taken.utf8ByteSize
  reach : Token.reach ts = l.position.offset
  beforeText : Token.beforeText ts = l.inText
  covers : Covers source ts
  noEnd : ∀ t ∈ ts, t.kind ≠ .eof

theorem stands_start (source file : String) : Stands source [] (start source file) where
  split := ⟨"", by simp [start], rfl⟩
  reach := rfl
  beforeText := rfl
  covers := .nil
  noEnd := nofun

variable {source file : String} {ts : List Token} {l l' : Lexer} {t : Token}

/-- A call that yields a token keeps what is known of those read before. -/
theorem Stands.yields {gap lexeme : List Char} (hsize : source.utf8ByteSize ≤ Span.maxOffset)
    (h : Stands source ts l) (hy : Yields l t l' gap lexeme) : Stands source (ts ++ [t]) l' := by
  -- The source is what was taken before, the gap, the text of the token and the rest; the offsets
  -- that the token carries are the sizes of the first two and the first three.
  obtain ⟨taken, hsource, hoffset⟩ := h.split
  have hsource' : source = taken ++ String.ofList gap ++ String.ofList lexeme ++
      String.ofList l'.rest := by
    rw [hsource, hy.split]
    simp [String.append_assoc]
  have hstart : (l.position.advanceAll gap).offset = (taken ++ String.ofList gap).utf8ByteSize := by
    rw [Position.offset_advanceAll, hoffset, String.utf8ByteSize_append]
  have hstop : l'.position.offset =
      (taken ++ String.ofList gap ++ String.ofList lexeme).utf8ByteSize := by
    rw [hy.position, Position.advanceAll_append, Position.offset_advanceAll, hstart]
    simp only [String.utf8ByteSize_append]
  -- Offsets of spans are of 32 bits, which is where the bound on the source is needed.
  have hspan : t.span = ⟨(l.position.advanceAll gap).offset, l'.position.offset⟩ := by
    rw [hy.span, Span.ofRange_eq_of_le]
    all_goals
      simp only [hstart, hstop, hsource', String.utf8ByteSize_append] at hsize ⊢
      omega
  have hlexeme : 0 < (String.ofList lexeme).utf8ByteSize := by
    obtain ⟨c, cs, rfl⟩ := List.exists_cons_of_ne_nil hy.scans.lexeme_ne
    rw [String.ofList_cons, String.utf8ByteSize_append, String.utf8ByteSize_singleton]
    exact Nat.add_pos_left c.utf8Size_pos _
  have ht : t.Stands source := by
    refine ⟨String.ofList lexeme, ⟨_, _, hsource', ?_, ?_⟩, ?_, fun _ => ?_⟩
    · rw [hspan, hstart]
    · rw [hspan, hstop]
    · simpa using hy.scans.spells
    · simp only [hspan, hstart, hstop, String.utf8ByteSize_append]
      omega
  have hf : t.Follows source ts := by
    refine ⟨String.ofList gap, ⟨taken, String.ofList lexeme ++ String.ofList l'.rest, ?_, ?_, ?_⟩,
      ?_, fun hno => ?_⟩
    · rw [hsource', String.append_assoc]
    · exact h.reach.trans hoffset
    · rw [hspan, hstart]
    · simpa [hy.scans.kind_ne] using hy.scans.isGap
    · rw [hy.noGap (by rwa [← h.beforeText]), String.ofList_nil]
  exact {
    split := ⟨_, hsource', hstop⟩
    reach := by rw [Token.reach_snoc, hspan]
    beforeText := by rw [Token.beforeText_snoc, h.beforeText, hy.inText]
    covers := h.covers.snoc ht hf
    noEnd := fun a ha => by
      rcases List.mem_append.1 ha with ha | ha
      · exact h.noEnd a ha
      · rw [List.mem_singleton.1 ha]
        exact hy.scans.kind_ne }

/-- The token at the end, after a call that finds no other. -/
theorem Stands.ends (hsize : source.utf8ByteSize ≤ Span.maxOffset) (h : Stands source ts l)
    (he : l.next = (.ok none, l')) {stop : Position} (hstop : stop.offset = source.utf8ByteSize) :
    Lossless source (ts ++ [tokenBetween file .eof "" stop stop]) := by
  obtain ⟨hgap, hno, -⟩ := next_ends he
  obtain ⟨taken, hsource, hoffset⟩ := h.split
  have hspan : (tokenBetween file .eof "" stop stop).span =
      ⟨source.utf8ByteSize, source.utf8ByteSize⟩ := by
    rw [tokenBetween, hstop]
    exact Span.ofRange_eq_of_le hsize hsize
  have ht : (tokenBetween file .eof "" stop stop).Stands source :=
    ⟨"", ⟨source, "", by simp, by rw [hspan], by simp [hspan]⟩, rfl, fun hk => absurd rfl hk⟩
  have hf : (tokenBetween file .eof "" stop stop).Follows source ts := by
    refine ⟨String.ofList l.rest, ⟨taken, "", ?_, ?_, ?_⟩, ?_, fun hb => ?_⟩
    · simpa using hsource
    · exact h.reach.trans hoffset
    · rw [hspan, ← hsource]
    · simpa [tokenBetween] using hgap
    · rw [hno (by simpa [h.beforeText, tokenBetween] using hb), String.ofList_nil]
  exact { h.covers.snoc ht hf with ended := ⟨ts, _, rfl, h.noEnd, rfl, hspan⟩ }

/-- **Any number of calls.** -/
theorem Stands.calls {us : List Token} (hsize : source.utf8ByteSize ≤ Span.maxOffset)
    (h : Stands source ts l) (hc : Calls l us l') : Stands source (ts ++ us) l' := by
  induction hc generalizing ts with
  | done => simpa using h
  | @token _ _ _ t us hn _ ih =>
    obtain ⟨gap, lexeme, hy⟩ := next_yields hn
    simpa using ih (h.yields hsize hy)

end Lexer

/-- **Lossless tokenization.** -/
theorem tokenize_lossless {source file : String} {ts : List Token}
    (hsize : source.utf8ByteSize ≤ Span.maxOffset) (h : Lexer.tokenize source file = .ok ts) :
    Lossless source ts := by
  obtain ⟨read, l, l', hread, hend, rfl⟩ := Lexer.tokenize_eq_ok_iff.mp h
  have hstands : Lexer.Stands source read l :=
    (Lexer.stands_start source file).calls hsize hread
  refine hstands.ends hsize hend ?_
  simp [Position.offset_advanceAll, Position.start]

/-- A text with a template, escapes of both sorts, a character of two bytes and an open comment. -/
theorem tokenize_lossless_template :
    ∃ source ts, source = "let s `é\\n$\x7bx\x7d` \"\\t\" /* open" ∧
      source.utf8ByteSize ≤ Span.maxOffset ∧ Lexer.tokenize source "main" = .ok ts ∧
      ts.map (·.kind) = [.keyword, .identifier, .backtick, .fragment, .interpolationStart,
        .identifier, .interpolationEnd, .backtick, .string, .eof] ∧ Lossless source ts := by
  have hkinds : (Lexer.tokenize "let s `é\\n$\x7bx\x7d` \"\\t\" /* open" "main").map
      (·.map (·.kind)) = .ok [.keyword, .identifier, .backtick, .fragment, .interpolationStart,
        .identifier, .interpolationEnd, .backtick, .string, .eof] := by rfl
  cases ht : Lexer.tokenize "let s `é\\n$\x7bx\x7d` \"\\t\" /* open" "main" with
  | error e => rw [ht] at hkinds; cases hkinds
  | ok ts =>
    rw [ht] at hkinds
    exact ⟨_, ts, rfl, by decide, ht, Except.ok.inj hkinds, tokenize_lossless (by decide) ht⟩

end ScriptLang
