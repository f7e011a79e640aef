import Mathlib.Data.List.DropRight
import Mathlib.Data.List.Induction
import ScriptLang.Diagnostic.Basic
import ScriptLang.Proofs.LosslessTokens
import ScriptLang.Text.Pieces

/-!
# Places point at tokens

A token carries a line and a column, and an error at the token is shown with the line and a caret.
Both are computed by other means than by reading the text again, and all of them name the same
character.

* `Position.column_advanceAll` and `Lines.getElem?_split` — a place in a text, its column and its
  line in terms of what stands before and after it.
* `Diagnostic.CaretBelow` — the caret of an error block stands below a character of the quotation.
  What the quotation loses on its left is what the caret is moved by, unless the character is a
  blank that is lost itself (`Diagnostic.caretBelow_of_snippet`).
* `Lexer.beginsAt_of_tokenize` — where a token begins, and that only the text of a template can
  begin with a blank.
* `places_point_at_tokens` is the main statement; `Token.PlacedAt` says what is meant by it. Lines
  and columns have 32 bits. In a text whose offsets fit, so do those of every token that is read,
  but the token at the end may stand one further (`places_point_at_tokens_clamped`).
-/

namespace ScriptLang

/-! ### Lines and columns of a text -/

/-- The line after some characters counts the line feeds among them. -/
theorem Position.line_advanceAll (p : Position) (cs : List Char) :
    (p.advanceAll cs).line = p.line + cs.count '\n' := by
  induction cs generalizing p with
  | nil => rfl
  | cons c cs ih =>
    rw [advanceAll_cons, ih, List.count_cons]
    unfold advance
    by_cases hc : c = '\n'
    · simp [hc]
      omega
    · simp [hc]

/-- The column after a first part of a text counts the characters of its last line. -/
theorem Position.column_advanceAll (cs : List Char) :
    (start.advanceAll cs).column = 1 + (cs.rtakeWhile (· ≠ '\n')).length := by
  induction cs using List.reverseRecOn with
  | nil => rfl
  | append_singleton cs c ih =>
    rw [advanceAll_append, advanceAll_cons, advanceAll_nil, advance, List.rtakeWhile_concat]
    by_cases hc : c = '\n'
    · simp [hc]
    · simp [hc, ih]
      omega

namespace Lines

theorem length_split (cs : List Char) : (split cs).length = cs.count '\n' + 1 := by
  induction cs with
  | nil => rfl
  | cons c cs ih =>
    rw [split, List.count_cons]
    cases h : split cs with
    | nil => exact absurd h (split_ne_nil cs)
    | cons l ls =>
      rw [h] at ih
      by_cases hc : c = '\n'
      · simpa [hc] using ih
      · simpa [hc] using ih

/-- Lines are the pieces between line feeds. -/
theorem split_eq_pieces (cs : List Char) : split cs = Pieces.split '\n' cs := by
  induction cs with
  | nil => rfl
  | cons c cs ih =>
    cases h : Pieces.split '\n' cs with
    | nil => exact absurd h (Pieces.split_ne_nil _ _)
    | cons p ps => simp [split, Pieces.split, ih, h]

/-- The first line. -/
theorem getElem?_split_zero (cs : List Char) :
    (split cs)[0]? = some (cs.takeWhile (· ≠ '\n')) := by
  induction cs with
  | nil => rfl
  | cons c cs ih =>
    rw [split]
    cases h : split cs with
    | nil => exact absurd h (split_ne_nil cs)
    | cons l ls =>
      obtain rfl : l = cs.takeWhile (· ≠ '\n') := by simpa [h] using ih
      by_cases hc : c = '\n' <;> simp [hc]

/-- A text has as many lines as it has line feeds, and one. -/
theorem exists_line? {source : String} {n : Nat} (hpos : 0 < n)
    (hle : n ≤ 1 + source.toList.count '\n') :
    ∃ l, (split source.toList)[n - 1]? = some l ∧
      line? source n = some (.ofList (dropReturn l)) := by
  obtain ⟨i, rfl⟩ := Nat.exists_eq_add_one_of_ne_zero (Nat.ne_zero_of_lt hpos)
  have hi : i < (split source.toList).length := by
    rw [length_split]
    omega
  have hl := List.getElem?_eq_getElem hi
  exact ⟨_, hl, by rw [line?, hl, Option.map_some]⟩

/-- **The line around a place.** The line feeds before the place give its number; it is what stands
between the last of them and the next one. -/
theorem getElem?_split (before after : List Char) :
    (split (before ++ after))[before.count '\n']? =
      some (before.rtakeWhile (· ≠ '\n') ++ after.takeWhile (· ≠ '\n')) := by
  induction before using List.reverseRecOn generalizing after with
  | nil => exact getElem?_split_zero after
  | append_singleton cs c ih =>
    rw [List.append_assoc, List.singleton_append, List.count_append, List.rtakeWhile_concat]
    by_cases hc : c = '\n'
    · -- The place is at the beginning of a line, behind all lines of the part before it.
      have hcount : cs.count '\n' + [c].count '\n' = (split cs).length + 0 := by
        rw [length_split]
        simp [hc]
      rw [hcount, hc, split_eq_pieces, Pieces.split_append_cons, ← split_eq_pieces,
        List.getElem?_append_right (Nat.le_add_right _ _), Nat.add_sub_cancel_left,
        ← split_eq_pieces, getElem?_split_zero]
      simp
    · have hcount : [c].count '\n' = 0 := by simp [hc]
      rw [hcount, Nat.add_zero, ih]
      simp [hc]

end Lines

/-! ### What a quotation keeps -/

namespace Lines

theorem dropReturn_concat (cs : List Char) (c : Char) :
    dropReturn (cs ++ [c]) = if c = '\r' then cs else cs ++ [c] := by
  simp [dropReturn]

/-- A character that is no carriage return is kept, with all that is before it. -/
theorem dropReturn_append_cons {c : Char} (hc : c ≠ '\r') (cs ds : List Char) :
    dropReturn (cs ++ c :: ds) = cs ++ c :: dropReturn ds := by
  obtain rfl | ⟨ds, d, rfl⟩ := ds.eq_nil_or_concat'
  · rw [dropReturn_concat, if_neg hc]
    rfl
  · rw [← List.cons_append, ← List.append_assoc, dropReturn_concat, dropReturn_concat]
    split <;> simp

theorem dropReturn_isPrefix (cs : List Char) : dropReturn cs <+: cs := by
  unfold dropReturn
  split
  · exact List.dropLast_prefix cs
  · exact List.prefix_rfl

end Lines

namespace Blank

section

variable {c : Char} (hc : isBlank c = false) (cs ds : List Char)

include hc

theorem takeWhile_append_cons : (cs ++ c :: ds).takeWhile isBlank = cs.takeWhile isBlank := by
  rw [List.takeWhile_append]
  split
  · rename_i hall
    rw [List.takeWhile_cons_of_neg (by simp [hc]), List.append_nil]
    exact ((List.takeWhile_sublist isBlank).eq_of_length hall).symm
  · rfl

theorem dropBlanks_append_cons : dropBlanks (cs ++ c :: ds) = dropBlanks cs ++ c :: ds := by
  rw [dropBlanks, List.dropWhile_append]
  split
  · rename_i hempty
    rw [List.dropWhile_cons_of_neg (by simp [hc]), dropBlanks, List.isEmpty_iff.mp hempty]
    rfl
  · rfl

/-- A character that is no blank is kept, with all that is before it. -/
theorem dropBlanksEnd_append_cons :
    dropBlanksEnd (cs ++ c :: ds) = cs ++ c :: dropBlanksEnd ds := by
  have hreverse : (cs ++ c :: ds).reverse = ds.reverse ++ c :: cs.reverse := by simp
  rw [dropBlanksEnd, hreverse, dropBlanks_append_cons hc]
  simp [dropBlanksEnd]

end

theorem dropBlanksEnd_isPrefix (cs : List Char) : dropBlanksEnd cs <+: cs := by
  rw [← List.reverse_suffix, dropBlanksEnd, List.reverse_reverse]
  exact List.dropWhile_suffix _

end Blank

namespace Diagnostic

/-- **Caret below.** In the block of an error, the caret stands in the column in which `c` stands in
the line above it, between `shown` and `more`. -/
def CaretBelow (d : Diagnostic) (shown : List Char) (c : Char) (more : List Char) : Prop :=
  ∃ later, d.render = d.headline ++ "\n    at " ++ d.location.display ++
    "\n> " ++ String.ofList (shown ++ c :: more) ++
    "\n  " ++ String.ofList (List.replicate shown.length ' ') ++ "^\n" ++ later

/-- The block of an error that quotes a line. -/
theorem render_of_snippet {d : Diagnostic} {line : String} (h : d.snippet = some line)
    (hne : Blank.trim line ≠ "") :
    ∃ later, d.render = d.headline ++ "\n    at " ++ d.location.display ++
      "\n> " ++ Blank.trim line ++
      "\n  " ++ String.ofList (List.replicate (d.caretOffset line) ' ') ++ "^\n" ++ later := by
  have hquotation : d.quotation =
      "> " ++ Blank.trim line ++ "\n  " ++ blanks (d.caretOffset line) ++ "^\n" := by
    rw [quotation, h]
    simp [String.isEmpty_eq_false_iff.mpr hne, toString, ← String.toList_inj]
  refine ⟨d.advice ++ d.callList, ?_⟩
  rw [render, hquotation, blanks]
  simp [toString, ← String.toList_inj]

/-- The caret stands below the character whose column the location has, if that is no blank. -/
theorem caretBelow_of_snippet {d : Diagnostic} {before after : List Char} {c : Char}
    (hc : Blank.isBlank c = false) (hsnippet : d.snippet = some (.ofList (before ++ c :: after)))
    (hcolumn : d.location.column = 1 + before.length) :
    d.CaretBelow (Blank.dropBlanks before) c (Blank.dropBlanksEnd after) := by
  have htrim : Blank.trim (.ofList (before ++ c :: after)) =
      .ofList (Blank.dropBlanks before ++ c :: Blank.dropBlanksEnd after) := by
    rw [Blank.trim, String.toList_ofList, Blank.dropBlanks_append_cons hc,
      Blank.dropBlanksEnd_append_cons hc]
  -- Trimming moves the character to the left by as many places as the caret is moved.
  have hcaret : d.caretOffset (.ofList (before ++ c :: after)) =
      (Blank.dropBlanks before).length := by
    have hlength := congrArg List.length (before.takeWhile_append_dropWhile (p := Blank.isBlank))
    rw [List.length_append] at hlength
    rw [caretOffset, Blank.leading, String.toList_ofList, Blank.takeWhile_append_cons hc, hcolumn,
      Blank.dropBlanks]
    omega
  have hne : Blank.trim (.ofList (before ++ c :: after)) ≠ "" := by
    rw [htrim]
    simp [← String.toList_inj]
  have hrender := render_of_snippet hsnippet hne
  rwa [htrim, hcaret] at hrender

end Diagnostic

/-! ### Where a token begins -/

theorem Blank.isBlank_of_graphic {c : Char} (h : 33 ≤ c.toNat) (h' : c.toNat ≤ 126) :
    isBlank c = false := by
  simp only [isBlank, Bool.or_eq_false_iff, Bool.and_eq_false_iff, decide_eq_false_iff_not,
    beq_eq_false_iff_ne]
  omega

/-- What is kept of a number in 32 bits. -/
theorem toNat_ofNatClamp (n : Nat) : (UInt32.ofNatClamp n).toNat = min n (UInt32.size - 1) := by
  obtain h | h := Nat.lt_or_ge n UInt32.size
  · rw [UInt32.toNat_ofNatClamp_of_lt h, Nat.min_eq_left (Nat.le_sub_one_of_lt h)]
  · rw [UInt32.toNat_ofNatClamp_of_le h, Nat.min_eq_right ((Nat.sub_le _ 1).trans h)]

/-- **Begins at.** A token carries the offset, the line and the column of a place, as far as 32 bits
can hold them. -/
structure Token.BeginsAt (t : Token) (p : Position) : Prop where
  start : t.span.start = min p.offset Span.maxOffset
  line : t.line.toNat = min p.line (UInt32.size - 1)
  column : t.column.toNat = min p.column (UInt32.size - 1)

namespace Lexer

theorem isBlank_of_isDigit {c : Char} (h : c.isDigit = true) : Blank.isBlank c = false := by
  obtain ⟨hlow, hhigh⟩ : 48 ≤ c.toNat ∧ c.toNat ≤ 57 := by
    simpa [Char.isDigit, UInt32.le_iff_toNat_le] using h
  exact Blank.isBlank_of_graphic (by omega) (by omega)

theorem isBlank_of_isWordStart {c : Char} (h : isWordStart c = true) : Blank.isBlank c = false := by
  obtain ⟨hlow, hhigh⟩ : 33 ≤ c.toNat ∧ c.toNat ≤ 126 := by
    have hcases : ((c.isUpper || c.isLower) || c == '_') = true := h
    rw [Bool.or_eq_true, Bool.or_eq_true, beq_iff_eq] at hcases
    obtain (hupper | hlower) | rfl := hcases
    · obtain ⟨h₁, h₂⟩ : 65 ≤ c.toNat ∧ c.toNat ≤ 90 := of_decide_eq_true hupper
      exact ⟨by omega, by omega⟩
    · obtain ⟨h₁, h₂⟩ := Bool.and_eq_true_iff.mp hlower
      have h₃ : 97 ≤ c.toNat := of_decide_eq_true h₁
      have h₄ : c.toNat ≤ 122 := of_decide_eq_true h₂
      exact ⟨by omega, by omega⟩
    · decide
  exact Blank.isBlank_of_graphic hlow hhigh

theorem isBlank_of_mem_marks : ∀ m ∈ marks, ∀ c ∈ m.1, Blank.isBlank c = false := by
  have hall : marks.all (fun m => m.1.all fun c => !Blank.isBlank c) = true := by rfl
  intro m hm c hc
  simpa using List.all_eq_true.mp (List.all_eq_true.mp hall m hm) c hc

section

variable {rest gap lexeme : List Char} {c : Char} {w : TokenKind × String}

/-- No lexeme of ordinary code starts with a blank. -/
theorem CodeLexeme.isBlank_head (h : CodeLexeme rest (c :: lexeme) w) :
    Blank.isBlank c = false := by
  generalize hl : c :: lexeme = cs at h
  cases h with
  | string _ =>
    obtain ⟨rfl, -⟩ := List.cons.inj hl
    rfl
  | word _ hword =>
    subst hl
    rw [List.cons_append, wordLength] at hword
    split at hword
    case isTrue hc => exact isBlank_of_isWordStart hc
    case isFalse => cases hword
  | number _ _ hnumber =>
    subst hl
    by_cases hc : c.isDigit
    · exact isBlank_of_isDigit hc
    · simp [numberLength, digitsLength, hc] at hnumber
  | mark _ _ hmark =>
    subst hl
    exact isBlank_of_mem_marks _ (List.mem_of_find?_eq_some hmark) c List.mem_cons_self

/-- Only the text of a template can start with a blank. -/
theorem Scans.isBlank_head {stage stage' : TemplateMode × Nat}
    (h : Scans rest stage gap (c :: lexeme) w stage') (hkind : w.1 ≠ .fragment) :
    Blank.isBlank c = false := by
  cases h with
  | code _ _ _ hl _ => exact hl.isBlank_head
  | closing | opening => rfl
  | text => exact absurd rfl hkind

end

/-- A call tells its token where the lexeme begins. -/
theorem Yields.beginsAt {l l' : Lexer} {t : Token} {gap lexeme : List Char}
    (h : Yields l t l' gap lexeme) : t.BeginsAt (l.position.advanceAll gap) where
  start := by rw [h.span]; rfl
  line := by rw [h.line, toNat_ofNatClamp]
  column := by rw [h.column, toNat_ofNatClamp]

/-- The token at the end says that it begins there. -/
theorem beginsAt_endToken (source file : String) :
    (endToken source file).BeginsAt (Position.start.advanceAll source.toList) :=
  ⟨rfl, toNat_ofNatClamp _, toNat_ofNatClamp _⟩

/-- **Where a token begins.** Only the token at the end has nothing behind the place. -/
theorem beginsAt_of_tokenize {source file : String} {ts : List Token} {t : Token}
    (h : tokenize source file = .ok ts) (ht : t ∈ ts) :
    t.file = file ∧ ∃ before after, source.toList = before ++ after ∧
      t.BeginsAt (Position.start.advanceAll before) ∧
      (t.kind ≠ .eof → ∃ c cs, after = c :: cs ∧
        (t.kind ≠ .fragment → Blank.isBlank c = false)) := by
  obtain rfl | ⟨taken, l, l', gap, lexeme, hsource, hposition, hfile, hy⟩ := yields_of_tokenize h ht
  · exact ⟨rfl, source.toList, [], (List.append_nil _).symm, beginsAt_endToken source file,
      fun heof => absurd rfl heof⟩
  · have hbegins := hy.beginsAt
    rw [hposition, ← Position.advanceAll_append] at hbegins
    refine ⟨hy.token_file.trans hfile, taken ++ gap, lexeme ++ l'.rest, ?_, hbegins, fun _ => ?_⟩
    · rw [hsource, hy.split]
      simp
    · obtain ⟨c, cs, rfl⟩ := List.exists_cons_of_ne_nil hy.scans.lexeme_ne
      exact ⟨c, cs ++ l'.rest, rfl, hy.scans.isBlank_head⟩

end Lexer

/-! ### Places point at tokens -/

/-- **Placed at.** The token begins between two parts of a text: it carries the number of bytes
before that place, its line and its column, the text has that line, and the caret of an error at the
token stands below the first character of `after`. On its left the quotation shows the line up to
the token, less the blanks at the front. -/
structure Token.PlacedAt (source file : String) (t : Token) (before after : List Char) : Prop where
  file : t.file = file
  start : t.span.start = (String.ofList before).utf8ByteSize
  line : t.line.toNat = min (1 + before.count '\n') (UInt32.size - 1)
  column : t.column.toNat = min (1 + (before.rtakeWhile (· ≠ '\n')).length) (UInt32.size - 1)
  /-- No line and no column is cut off, but for the token at the end. -/
  exact : t.kind ≠ .eof → t.line.toNat = 1 + before.count '\n' ∧
    t.column.toNat = 1 + (before.rtakeWhile (· ≠ '\n')).length
  quoted : ∃ line, Lines.line? source t.line.toNat = some line
  caret : t.kind ≠ .fragment → t.kind ≠ .eof → ∃ blanks shown c more,
    before.rtakeWhile (· ≠ '\n') = blanks ++ shown ∧ (∀ b ∈ blanks, Blank.isBlank b = true) ∧
      c :: more <+: after.takeWhile (· ≠ '\n') ∧
      ∀ d : Diagnostic, d.location = t.location →
        (d.withSource source).CaretBelow shown c more

/-- The line that is quoted for a place, if a character that is no blank follows there. -/
theorem Lines.line?_of_split {source : String} {before after : List Char} {c : Char}
    (hsource : source.toList = before ++ c :: after) (hc : Blank.isBlank c = false) :
    line? source (1 + before.count '\n') = some (.ofList (before.rtakeWhile (· ≠ '\n') ++
      c :: dropReturn (after.takeWhile (· ≠ '\n')))) := by
  have hfeed : c ≠ '\n' := by rintro rfl; cases hc
  have hreturn : c ≠ '\r' := by rintro rfl; cases hc
  rw [Nat.add_comm, line?, hsource, getElem?_split,
    List.takeWhile_cons_of_pos (by simpa using hfeed), Option.map_some,
    dropReturn_append_cons hreturn]

/-- The text has the line that a token begins on. -/
theorem Lexer.line?_of_tokenize {source file : String} {ts : List Token} {t : Token}
    (h : tokenize source file = .ok ts) (ht : t ∈ ts) :
    0 < t.line.toNat ∧ ∃ l, (Lines.split source.toList)[t.line.toNat - 1]? = some l ∧
      Lines.line? source t.line.toNat = some (.ofList (Lines.dropReturn l)) := by
  obtain ⟨-, before, after, hsource, hbegins, -⟩ := beginsAt_of_tokenize h ht
  -- A line that is cut off stands before the one that the token is on.
  have hline : t.line.toNat = min (1 + before.count '\n') (UInt32.size - 1) := by
    rw [hbegins.line, Position.line_advanceAll]
    rfl
  have hcount : before.count '\n' ≤ source.toList.count '\n' := by
    rw [hsource, List.count_append]
    exact Nat.le_add_right _ _
  have hpos : 0 < t.line.toNat := by
    rw [hline]
    exact Nat.lt_min.mpr ⟨by omega, by decide⟩
  exact ⟨hpos, Lines.exists_line? hpos (by omega)⟩

theorem length_le_utf8ByteSize (cs : List Char) :
    cs.length ≤ (String.ofList cs).utf8ByteSize := by
  induction cs with
  | nil => exact Nat.zero_le _
  | cons c cs ih =>
    have hc := c.utf8Size_pos
    rw [String.ofList_cons, String.utf8ByteSize_append, String.utf8ByteSize_singleton,
      List.length_cons]
    omega

/-- Before a character of a text there are fewer characters than the text has bytes. -/
theorem length_lt_of_split {source : String} {before after : List Char} {c : Char}
    (h : source.toList = before ++ c :: after) : before.length < source.utf8ByteSize := by
  have hbytes : source.utf8ByteSize =
      (String.ofList before).utf8ByteSize + (String.ofList (c :: after)).utf8ByteSize := by
    rw [← String.utf8ByteSize_append, ← String.ofList_append, ← h, String.ofList_toList]
  have hc := c.utf8Size_pos
  have hbefore := length_le_utf8ByteSize before
  rw [hbytes, String.ofList_cons, String.utf8ByteSize_append, String.utf8ByteSize_singleton]
  omega

/-- **Places point at tokens.** Every token of a text that is short enough for its offsets to be
kept is where it says. -/
theorem places_point_at_tokens {source file : String} {ts : List Token} {t : Token}
    (hsize : source.utf8ByteSize ≤ Span.maxOffset) (h : Lexer.tokenize source file = .ok ts)
    (ht : t ∈ ts) :
    ∃ before after, source.toList = before ++ after ∧ t.PlacedAt source file before after := by
  obtain ⟨hfile, before, after, hsource, hbegins, hfirst⟩ := Lexer.beginsAt_of_tokenize h ht
  have hline : t.line.toNat = min (1 + before.count '\n') (UInt32.size - 1) := by
    rw [hbegins.line, Position.line_advanceAll]
    rfl
  have hcolumn : t.column.toNat =
      min (1 + (before.rtakeWhile (· ≠ '\n')).length) (UInt32.size - 1) := by
    rw [hbegins.column, Position.column_advanceAll]
  -- Before a token that is not at the end there are fewer characters than the text has bytes.
  have hexact (heof : t.kind ≠ .eof) : t.line.toNat = 1 + before.count '\n' ∧
      t.column.toNat = 1 + (before.rtakeWhile (· ≠ '\n')).length := by
    obtain ⟨c, cs, rfl, -⟩ := hfirst heof
    have hlength : before.length < UInt32.size - 1 :=
      (length_lt_of_split hsource).trans_le hsize
    have hfeeds : before.count '\n' ≤ before.length := List.count_le_length
    have hlast : (before.rtakeWhile (· ≠ '\n')).length ≤ before.length :=
      (List.rtakeWhile_suffix _ _).length_le
    exact ⟨by omega, by omega⟩
  refine ⟨before, after, hsource, hfile, ?_, hline, hcolumn, hexact, ?_, fun hkind heof => ?_⟩
  · -- The offset is not cut off, since the whole text is short enough.
    have hle : (String.ofList before).utf8ByteSize ≤ Span.maxOffset := by
      rw [← String.ofList_toList (s := source), hsource, String.ofList_append,
        String.utf8ByteSize_append] at hsize
      omega
    have hzero : Position.start.offset = 0 := rfl
    rw [hbegins.start, Position.offset_advanceAll, hzero, Nat.zero_add, Nat.min_eq_left hle]
  · obtain ⟨-, _, -, hquoted⟩ := Lexer.line?_of_tokenize h ht
    exact ⟨_, hquoted⟩
  · -- The token begins with something that is not blank, so it stands in the line that is quoted.
    obtain ⟨c, cs, rfl, hblank⟩ := hfirst heof
    have hc := hblank hkind
    have hfeed : c ≠ '\n' := by rintro rfl; cases hc
    refine ⟨(before.rtakeWhile (· ≠ '\n')).takeWhile Blank.isBlank,
      Blank.dropBlanks (before.rtakeWhile (· ≠ '\n')), c,
      Blank.dropBlanksEnd (Lines.dropReturn (cs.takeWhile (· ≠ '\n'))),
      (List.takeWhile_append_dropWhile ..).symm, fun b hb => List.mem_takeWhile_imp hb, ?_,
      fun d hd => ?_⟩
    · rw [List.takeWhile_cons_of_pos (by simpa using hfeed), List.cons_prefix_cons]
      exact ⟨rfl, (Blank.dropBlanksEnd_isPrefix _).trans (Lines.dropReturn_isPrefix _)⟩
    · refine Diagnostic.caretBelow_of_snippet hc ?_ ?_
      · rw [Diagnostic.withSource, hd, ← Lines.line?_of_split hsource hc, ← (hexact heof).1]
        rfl
      · rw [Diagnostic.withSource, hd]
        exact (hexact heof).2

/-- Behind a line with a character of two bytes and a carriage return, and behind a tab. -/
theorem places_point_at_tokens_indented :
    ∃ source ts t, source = "let s \"é\"\r\n\tshow s" ∧ source.utf8ByteSize ≤ Span.maxOffset ∧
      Lexer.tokenize source "main" = .ok ts ∧ t ∈ ts ∧
      (t.kind, t.value, t.line, t.column) = (.keyword, "show", 2, 2) ∧
      ∃ before after, source.toList = before ++ after ∧ t.PlacedAt source "main" before after := by
  have hfields : (Lexer.tokenize "let s \"é\"\r\n\tshow s" "main").map
      (·.map fun t => (t.kind, t.value, t.line, t.column)) =
      .ok [(.keyword, "let", 1, 1), (.identifier, "s", 1, 5), (.string, "é", 1, 7),
        (.keyword, "show", 2, 2), (.identifier, "s", 2, 7), (.eof, "", 2, 8)] := by rfl
  cases hts : Lexer.tokenize "let s \"é\"\r\n\tshow s" "main" with
  | error e => rw [hts] at hfields; cases hfields
  | ok ts =>
    rw [hts] at hfields
    have hmap : ts.map (fun t => (t.kind, t.value, t.line, t.column)) = _ := Except.ok.inj hfields
    have hmem : (.keyword, "show", 2, 2) ∈ ts.map fun t => (t.kind, t.value, t.line, t.column) := by
      rw [hmap]
      decide
    obtain ⟨t, ht, hshow⟩ := List.mem_map.mp hmem
    exact ⟨_, ts, t, rfl, by decide, hts, ht, hshow, places_point_at_tokens (by decide) hts ht⟩

/-- A text of blanks has no token but the one at the end. -/
theorem Lexer.tokenize_blanks (n : Nat) (file : String) :
    tokenize (.ofList (List.replicate n ' ')) file =
      .ok [endToken (.ofList (List.replicate n ' ')) file] := by
  have hgap : IsGap true (List.replicate n ' ') := by
    induction n with
    | zero => exact .nil
    | succ n ih => exact .blank rfl ih
  obtain ⟨l', hl'⟩ := next_of_ends (l := start (.ofList (List.replicate n ' ')) file)
    (by rwa [start, String.toList_ofList]) nofun
  exact tokenize_eq_ok_iff.mpr ⟨[], _, l', .done, hl', rfl⟩

theorem utf8ByteSize_blanks (n : Nat) :
    (String.ofList (List.replicate n ' ')).utf8ByteSize = n := by
  induction n with
  | zero => rfl
  | succ n ih =>
    rw [List.replicate_succ, String.ofList_cons, String.utf8ByteSize_append, ih,
      String.utf8ByteSize_singleton]
    exact Nat.add_comm 1 n

/-- **The token at the end may stand one further.** In a line of blanks that is as long as offsets
allow, the column of the token at the end is cut off: it is less by one than what the characters
before the token come to. -/
theorem places_point_at_tokens_clamped :
    ∃ source t, source = String.ofList (List.replicate Span.maxOffset ' ') ∧
      source.utf8ByteSize ≤ Span.maxOffset ∧ Lexer.tokenize source "main" = .ok [t] ∧
      ∀ before after, source.toList = before ++ after →
        t.span.start = (String.ofList before).utf8ByteSize →
        t.column.toNat ≠ 1 + (before.rtakeWhile (· ≠ '\n')).length := by
  obtain ⟨n, hn⟩ : ∃ n, n = Span.maxOffset := ⟨_, rfl⟩
  rw [← hn]
  refine ⟨_, _, rfl, (utf8ByteSize_blanks n).le, Lexer.tokenize_blanks n "main",
    fun before after hsource hstart => ?_⟩
  have hbegins := Lexer.beginsAt_endToken (.ofList (List.replicate n ' ')) "main"
  rw [hbegins.column, Position.column_advanceAll]
  rw [hbegins.start, Position.offset_advanceAll, String.ofList_toList, utf8ByteSize_blanks,
    hn] at hstart
  -- The token is behind all the blanks, and there is nothing else in the line.
  have hbytes := congrArg String.utf8ByteSize (congrArg String.ofList hsource)
  rw [String.ofList_toList, utf8ByteSize_blanks, String.ofList_append,
    String.utf8ByteSize_append] at hbytes
  have hafter := length_le_utf8ByteSize after
  have hzero : Position.start.offset = 0 := rfl
  obtain rfl : after = [] := List.eq_nil_of_length_eq_zero (by omega)
  rw [List.append_nil] at hsource
  rw [← hsource, String.toList_ofList, List.rtakeWhile_eq_self_iff.mpr, List.length_replicate]
  · simp only [hn, Span.maxOffset, UInt32.size]
    omega
  · intro c hc
    simp [List.eq_of_mem_replicate hc]

end ScriptLang
