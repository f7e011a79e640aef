import Mathlib.Data.List.Basic
import ScriptLang.Proofs.Concurs
import ScriptLang.Proofs.TokenPlaces

/-!
# Blanks between tokens

Blanks where a token starts or ends change nothing but places, unless the text of a template follows
there.

* `IsGap.blanks_append` and `IsGap.append_blanks` — a gap with blanks before or behind it is one.
* `Lexer.IgnoresBlanks` — the length that is measured at the front of a text stays the same if
  blanks are put in behind the part that was measured. The lexer looks further than that: behind the
  digits of `1` it looks for a point and another digit, and for an exponent behind these. All of its
  measures are put together from a few that ignore blanks (`Lexer.markedLength`,
  `Lexer.followedBy`).
* `Lexer.Scans.insert` — the step lemma: what one call scans does not change when blanks are put
  into the text behind the lexeme.
* `Lexer.Calls.insert` — the run lemma: blanks put into a text are read over by calls that stop in
  front of them or in the gap before them, and these calls yield the same words. Without blanks it
  says that calls yield the same words wherever the lexer stands.
* `Lexer.Seam` — a place where one of the tokens of a text starts or ends, with the lexer in
  ordinary code or in an interpolation. It is said of the lexer, not of the token, which keeps of
  its place what 32 bits can hold. A place is known from its line and column
  (`Position.advanceAll_inj`).
* `blanks_between_tokens` is the main statement.
-/

namespace ScriptLang

/-! ### Gaps -/

section

variable {atEnd : Bool} {gap blanks : List Char} (hb : ∀ c ∈ blanks, Lexer.isSpace c = true)

include hb

/-- No mark is completed by blanks. -/
theorem infix_of_append_blanks {body : List Char} (mark : List Char) {c : Char}
    (hc : Lexer.isSpace c = false) (h : (mark ++ [c]) <:+: body ++ blanks) :
    (mark ++ [c]) <:+: body := by
  obtain ⟨xs, ys, hsplit⟩ := h
  obtain ⟨zs, rfl, -⟩ | ⟨zs, hfront, rfl⟩ := List.append_eq_append_iff.mp hsplit
  · exact ⟨xs, zs, rfl⟩
  · obtain rfl | ⟨zs, d, rfl⟩ := zs.eq_nil_or_concat'
    · exact ⟨xs, [], by simpa using hfront⟩
    · rw [← List.append_assoc, ← List.append_assoc] at hfront
      obtain rfl : c = d := by simpa using (List.append_inj' hfront rfl).2
      simp [hb c (by simp)] at hc

theorem IsGap.of_blanks : IsGap atEnd blanks := by
  induction blanks with
  | nil => exact .nil
  | cons c blanks ih =>
    obtain ⟨hc, hblanks⟩ := List.forall_mem_cons.mp hb
    exact .blank hc (ih hblanks)

theorem IsGap.blanks_append (h : IsGap atEnd gap) : IsGap atEnd (blanks ++ gap) := by
  induction blanks with
  | nil => exact h
  | cons c blanks ih =>
    obtain ⟨hc, hblanks⟩ := List.forall_mem_cons.mp hb
    exact .blank hc (ih hblanks)

/-- Blanks behind an open comment belong to the comment, unless a line feed among them ends it. -/
theorem IsGap.append_blanks (h : IsGap atEnd gap) : IsGap atEnd (gap ++ blanks) := by
  induction h with
  | nil => exact .of_blanks hb
  | blank hc _ ih => exact .blank hc ih
  | line hbody _ ih => simpa using IsGap.line hbody ih
  | block hbody _ ih => simpa using IsGap.block hbody ih
  | @openLine body hend hbody =>
    by_cases hfeed : '\n' ∈ blanks
    · obtain ⟨xs, ys, rfl, hxs⟩ := List.eq_append_cons_of_mem hfeed
      have hys : IsGap atEnd ys := .of_blanks fun c hc => hb c (by simp [hc])
      have hfront : '\n' ∉ body ++ xs := by simp [hbody, hxs]
      simpa using IsGap.line hfront hys
    · exact .openLine hend (by simp [hbody, hfeed])
  | openBlock hend hbody =>
    exact .openBlock hend fun hmark => hbody (infix_of_append_blanks hb ['*'] rfl hmark)

end

/-! ### Measures -/

namespace Lexer

/-- **Ignores blanks.** Blanks behind the part of a text that is measured leave its length. -/
def IgnoresBlanks (length : List Char → Nat) : Prop :=
  ∀ (xs : List Char) {blanks : List Char} (ys : List Char), (∀ c ∈ blanks, isSpace c = true) →
    length (xs ++ ys) ≤ xs.length → length (xs ++ (blanks ++ ys)) = length (xs ++ ys)

/-- Blanks are of no class that the lexer takes characters of. -/
theorem ignoresBlanks_takeWhile {p : Char → Bool} (hp : ∀ c, isSpace c = true → p c = false) :
    IgnoresBlanks fun cs => (cs.takeWhile p).length := by
  intro xs blanks ys hb hle
  cases blanks with
  | nil => rfl
  | cons c blanks =>
    have hc : p c = false := hp c (hb c List.mem_cons_self)
    simp only [List.takeWhile_append] at hle ⊢
    split
    · rename_i hall
      rw [if_pos hall] at hle
      simp only [List.length_append] at hle
      have hys : (ys.takeWhile p).length = 0 := by omega
      simp [hc, hys]
    · rfl

/-- A class of characters that has none of the four blanks. -/
theorem false_of_isSpace (p : Char → Bool) (hp : [' ', '\t', '\r', '\n'].all (!p ·) = true)
    {c : Char} (hc : isSpace c = true) : p c = false := by
  simp only [isSpace, Bool.or_eq_true, beq_iff_eq] at hc
  simp only [List.all_cons, List.all_nil, Bool.and_eq_true, Bool.not_eq_true'] at hp
  obtain ((rfl | rfl) | rfl) | rfl := hc
  · exact hp.1
  · exact hp.2.1
  · exact hp.2.2.1
  · exact hp.2.2.2.1

/-- Nothing is measured at a blank, so blanks at the front do no harm. -/
theorem IgnoresBlanks.of_cons {length : List Char → Nat}
    (hblank : ∀ c cs, isSpace c = true → length (c :: cs) = 0)
    (hcons : ∀ x xs {blanks : List Char} ys, (∀ c ∈ blanks, isSpace c = true) →
      length (x :: (xs ++ ys)) ≤ xs.length + 1 →
      length (x :: (xs ++ (blanks ++ ys))) = length (x :: (xs ++ ys))) :
    IgnoresBlanks length := by
  intro xs blanks ys hb hle
  cases xs with
  | cons x xs => exact hcons x xs ys hb hle
  | nil =>
    cases blanks with
    | nil => rfl
    | cons c blanks =>
      have hzero : length ys = 0 := Nat.le_zero.mp hle
      exact (hblank c _ (hb c List.mem_cons_self)).trans hzero.symm

theorem ignoresBlanks_wordLength : IgnoresBlanks wordLength := by
  refine .of_cons (fun c cs hc => ?_) fun x xs blanks ys hb hle => ?_
  · have hstart : isWordStart c = false := false_of_isSpace isWordStart rfl hc
    simp [wordLength, hstart]
  · have htake : ((xs ++ ys).takeWhile isWordRest).length ≤ xs.length →
        ((xs ++ (blanks ++ ys)).takeWhile isWordRest).length =
          ((xs ++ ys).takeWhile isWordRest).length :=
      ignoresBlanks_takeWhile (fun _ => false_of_isSpace isWordRest rfl) xs ys hb
    simp only [wordLength] at hle ⊢
    split
    · rename_i hx
      rw [if_pos hx] at hle
      rw [htake (by omega)]
    · rfl

/-- The length of a character of a class and of what follows it; zero if one of them is missing. -/
def markedLength (p : Char → Bool) (length : List Char → Nat) : List Char → Nat
  | [] => 0
  | c :: cs => if p c then (match length cs with | 0 => 0 | n => n + 1) else 0

/-- The signs of an exponent. -/
def isSign (c : Char) : Bool := c == '+' || c == '-'

/-- The marks of an exponent. -/
def isExponentMark (c : Char) : Bool := c == 'e' || c == 'E'

/-- The length of digits, perhaps with a sign. -/
def signedLength : List Char → Nat
  | [] => 0
  | c :: cs =>
    if isSign c then markedLength isSign digitsLength (c :: cs) else digitsLength (c :: cs)

theorem IgnoresBlanks.marked {p : Char → Bool} {length : List Char → Nat}
    (hp : ∀ c, isSpace c = true → p c = false) (h : IgnoresBlanks length) :
    IgnoresBlanks (markedLength p length) := by
  refine .of_cons (fun c cs hc => ?_) fun x xs blanks ys hb hle => ?_
  · rw [markedLength, hp c hc]
    rfl
  · simp only [markedLength] at hle ⊢
    split
    · rename_i hx
      rw [if_pos hx] at hle
      have hlength : length (xs ++ ys) ≤ xs.length := by
        split at hle <;> omega
      rw [h xs ys hb hlength]
    · rfl

theorem fractionLength_eq (cs : List Char) :
    fractionLength cs = markedLength (· == '.') digitsLength cs := by
  unfold fractionLength
  split
  · rfl
  · rename_i hdot
    cases cs with
    | nil => rfl
    | cons c cs =>
      have hc : c ≠ '.' := by rintro rfl; exact hdot _ rfl
      simp [markedLength, hc]

theorem exponentLength_eq (cs : List Char) :
    exponentLength cs = markedLength isExponentMark signedLength cs := by
  match cs with
  | [] => rfl
  | [c] => simp [exponentLength, markedLength, signedLength]
  | c :: s :: cs =>
    have hmark : (c == 'e' || c == 'E') = isExponentMark c := rfl
    have hsign : (s == '+' || s == '-') = isSign s := rfl
    simp only [exponentLength, markedLength, signedLength, hmark, hsign]
    cases isSign s
    · rfl
    · cases digitsLength cs <;> rfl

theorem ignoresBlanks_digitsLength : IgnoresBlanks digitsLength :=
  ignoresBlanks_takeWhile fun _ => false_of_isSpace Char.isDigit rfl

theorem ignoresBlanks_signedLength : IgnoresBlanks signedLength := by
  refine .of_cons (fun c cs hc => ?_) fun x xs blanks ys hb hle => ?_
  · have hsign : isSign c = false := false_of_isSpace isSign rfl hc
    have hdigit : c.isDigit = false := false_of_isSpace Char.isDigit rfl hc
    simp [signedLength, hsign, digitsLength, hdigit]
  · simp only [signedLength] at hle ⊢
    by_cases hx : isSign x = true
    · rw [if_pos hx] at hle
      rw [if_pos hx, if_pos hx]
      exact ignoresBlanks_digitsLength.marked (fun _ => false_of_isSpace isSign rfl) (x :: xs) ys hb
        hle
    · rw [if_neg hx] at hle
      rw [if_neg hx, if_neg hx]
      exact ignoresBlanks_digitsLength (x :: xs) ys hb hle

theorem ignoresBlanks_fractionLength : IgnoresBlanks fractionLength := by
  rw [funext fractionLength_eq]
  exact ignoresBlanks_digitsLength.marked fun _ => false_of_isSpace (· == '.') rfl

theorem ignoresBlanks_exponentLength : IgnoresBlanks exponentLength := by
  rw [funext exponentLength_eq]
  exact ignoresBlanks_signedLength.marked fun _ => false_of_isSpace isExponentMark rfl

/-- A measure that goes on where another one ends. -/
def followedBy (length length' : List Char → Nat) (cs : List Char) : Nat :=
  length cs + length' (cs.drop (length cs))

theorem IgnoresBlanks.followedBy {length length' : List Char → Nat} (h : IgnoresBlanks length)
    (h' : IgnoresBlanks length') : IgnoresBlanks (followedBy length length') := by
  intro xs blanks ys hb hle
  unfold Lexer.followedBy at hle ⊢
  have hlength : length (xs ++ ys) ≤ xs.length := Nat.le_trans (Nat.le_add_right _ _) hle
  rw [h xs ys hb hlength, List.drop_append_of_le_length hlength,
    List.drop_append_of_le_length hlength]
  rw [List.drop_append_of_le_length hlength] at hle
  rw [h' _ ys hb]
  rw [List.length_drop]
  omega

theorem numberLength_eq (cs : List Char) :
    numberLength cs = if digitsLength cs = 0 then 0 else
      followedBy (followedBy digitsLength fractionLength) exponentLength cs := by
  unfold numberLength
  split
  · rename_i hzero
    rw [if_pos hzero]
  · rename_i hpos
    rw [if_neg hpos]
    rfl

theorem ignoresBlanks_numberLength : IgnoresBlanks numberLength := by
  intro xs blanks ys hb hle
  rw [numberLength_eq] at hle
  rw [numberLength_eq, numberLength_eq]
  by_cases hzero : digitsLength (xs ++ ys) = 0
  · have hdigits := ignoresBlanks_digitsLength xs ys hb (hzero ▸ Nat.zero_le _)
    rw [if_pos hzero, if_pos (hdigits.trans hzero)]
  · rw [if_neg hzero] at hle
    have hnumber := (ignoresBlanks_digitsLength.followedBy ignoresBlanks_fractionLength).followedBy
      ignoresBlanks_exponentLength xs ys hb hle
    have hdigits := ignoresBlanks_digitsLength xs ys hb
      (Nat.le_trans (Nat.le_trans (Nat.le_add_right _ _) (Nat.le_add_right _ _)) hle)
    rw [if_neg hzero, if_neg (hdigits ▸ hzero), hnumber]

/-! ### Lexemes -/

theorem isSpace_of_mem_marks : ∀ m ∈ marks, ∀ c ∈ m.1, isSpace c = false := by
  have hall : marks.all (fun m => m.1.all fun c => !isSpace c) = true := by rfl
  intro m hm c hc
  simpa using List.all_eq_true.mp (List.all_eq_true.mp hall m hm) c hc

section

variable {blanks : List Char} (hb : ∀ c ∈ blanks, isSpace c = true)

include hb

/-- A mark in front of a text with blanks in it ends before the blanks. -/
theorem prefix_of_mem_marks {m : List Char × TokenKind} (hm : m ∈ marks) {xs ys : List Char}
    (hne : blanks ≠ []) (h : m.1 <+: xs ++ (blanks ++ ys)) : m.1 <+: xs := by
  obtain hfront | ⟨zs, hzs⟩ := List.prefix_or_prefix_of_prefix h (List.prefix_append _ _)
  · exact hfront
  obtain ⟨c, blanks, rfl⟩ := List.exists_cons_of_ne_nil hne
  rw [← hzs, List.prefix_append_right_inj] at h
  cases zs with
  | nil => simp [← hzs]
  | cons z zs =>
    obtain rfl : z = c := (List.cons_prefix_cons.mp h).1
    have hblank := hb z List.mem_cons_self
    rw [isSpace_of_mem_marks m hm z (by simp [← hzs])] at hblank
    cases hblank

theorem mark?_insert {xs text : List Char} {kind : TokenKind} (ys : List Char)
    (h : mark? (xs ++ ys) = some (text, kind)) (htext : text <+: xs) :
    mark? (xs ++ (blanks ++ ys)) = some (text, kind) := by
  by_cases hne : blanks = []
  · rw [hne]
    exact h
  rw [mark?, List.find?_eq_some_iff_append] at h ⊢
  obtain ⟨-, before, after, hmarks, hothers⟩ := h
  refine ⟨?_, before, after, hmarks, fun m hm => ?_⟩
  · simpa using htext.trans (List.prefix_append _ _)
  · -- An earlier mark that is there now was there before.
    have hmem : m ∈ marks := by simp [hmarks, hm]
    have hnot : ¬ m.1 <+: xs ++ ys := by
      simpa [← List.isPrefixOf_iff_prefix] using hothers m hm
    have hnow : ¬ m.1 <+: xs ++ (blanks ++ ys) := fun hfront =>
      hnot ((prefix_of_mem_marks hb hmem hne hfront).trans (List.prefix_append _ _))
    simpa [← List.isPrefixOf_iff_prefix] using hnow

theorem settled_insert {c : Char} {xs ys : List Char} (h : Settled (c :: (xs ++ ys))) :
    Settled (c :: (xs ++ (blanks ++ ys))) := by
  refine ⟨h.1, fun hslash d hd => ?_⟩
  cases xs with
  | cons x xs => exact h.2 hslash d hd
  | nil =>
    cases blanks with
    | nil => exact h.2 hslash d hd
    | cons b blanks =>
      obtain rfl : b = d := Option.some.inj hd
      have hblank := hb b List.mem_cons_self
      constructor <;> rintro rfl <;> cases hblank

/-- A length that does not reach over the part in front of the blanks. -/
theorem IgnoresBlanks.insert {length : List Char → Nat} (hlength : IgnoresBlanks length)
    {lexeme xs ys : List Char} {n : Nat} (h : length (lexeme ++ (xs ++ ys)) = n)
    (hn : n ≤ lexeme.length) : length (lexeme ++ (xs ++ (blanks ++ ys))) = n := by
  rw [← List.append_assoc] at h ⊢
  rw [hlength _ _ hb, h]
  rw [h, List.length_append]
  exact Nat.le_trans hn (Nat.le_add_right _ _)

theorem CodeLexeme.insert {lexeme xs ys : List Char} {w : TokenKind × String}
    (h : CodeLexeme (xs ++ ys) lexeme w) : CodeLexeme (xs ++ (blanks ++ ys)) lexeme w := by
  cases h with
  | string hbody => exact .string hbody
  | word hne hword => exact .word hne (ignoresBlanks_wordLength.insert hb hword (Nat.le_refl _))
  | number hne hword hnumber =>
    exact .number hne (ignoresBlanks_wordLength.insert hb hword (Nat.zero_le _))
      (ignoresBlanks_numberLength.insert hb hnumber (Nat.le_refl _))
  | mark hword hnumber hmark =>
    refine .mark (ignoresBlanks_wordLength.insert hb hword (Nat.zero_le _))
      (ignoresBlanks_numberLength.insert hb hnumber (Nat.zero_le _)) ?_
    rw [← List.append_assoc] at hmark ⊢
    exact mark?_insert hb ys hmark (List.prefix_append _ _)

/-- **One call.** Blanks that are put into the text behind a lexeme do not change what is scanned.
Text of a template is an exception, unless the delimiter that ends it is still in front of the
blanks. -/
theorem Scans.insert {xs ys gap lexeme : List Char} {w : TokenKind × String}
    {stage stage' : TemplateMode × Nat} (h : Scans (xs ++ ys) stage gap lexeme w stage')
    (htext : w.1 = .fragment → AtDelimiter (xs ++ (blanks ++ ys))) :
    Scans (xs ++ (blanks ++ ys)) stage gap lexeme w stage' := by
  cases h with
  | code hm hgap hsettled hl hmark =>
    refine .code hm hgap ?_ (hl.insert hb) hmark
    obtain ⟨c, cs, rfl⟩ := List.exists_cons_of_ne_nil hl.cases_plain.1
    rw [List.cons_append, ← List.append_assoc] at hsettled ⊢
    exact settled_insert hb hsettled
  | closing hm => exact .closing hm
  | opening hm => exact .opening hm
  | text hm hne hbody _ => exact .text hm hne hbody (htext rfl)

end

end Lexer

/-! ### Places and seams -/

namespace Position

/-- On one line the column counts the characters. -/
theorem column_advanceAll_of_not_mem {cs : List Char} (h : '\n' ∉ cs) (p : Position) :
    (p.advanceAll cs).column = p.column + cs.length := by
  induction cs generalizing p with
  | nil => rfl
  | cons c cs ih =>
    obtain ⟨hc, hcs⟩ := not_or.mp (mt List.mem_cons.mpr h)
    have hcolumn : (p.advance c).column = p.column + 1 := by rw [advance, if_neg (Ne.symm hc)]
    rw [advanceAll_cons, ih hcs, hcolumn, List.length_cons]
    omega

/-- A place behind some characters has another line or another column. -/
theorem eq_nil_of_advanceAll {p : Position} {cs : List Char}
    (hline : (p.advanceAll cs).line = p.line) (hcolumn : (p.advanceAll cs).column = p.column) :
    cs = [] := by
  have hfeed : '\n' ∉ cs := by
    rw [line_advanceAll] at hline
    exact List.count_eq_zero.mp (by omega)
  rw [column_advanceAll_of_not_mem hfeed] at hcolumn
  exact List.length_eq_zero_iff.mp (by omega)

/-- **A place is known from its line and column.** -/
theorem advanceAll_inj {p : Position} {xs xs' ys ys' : List Char} (h : xs ++ ys = xs' ++ ys')
    (hline : (p.advanceAll xs).line = (p.advanceAll xs').line)
    (hcolumn : (p.advanceAll xs).column = (p.advanceAll xs').column) : xs = xs' ∧ ys = ys' := by
  obtain ⟨zs, rfl, rfl⟩ | ⟨zs, rfl, rfl⟩ := List.append_eq_append_iff.mp h
  · rw [advanceAll_append] at hline hcolumn
    simp [eq_nil_of_advanceAll hline.symm hcolumn.symm]
  · rw [advanceAll_append] at hline hcolumn
    simp [eq_nil_of_advanceAll hline hcolumn]

end Position

namespace Lexer

/-- The place where the next token starts, outside of the text of templates: behind the blanks and
comments that are dropped. At the end of a text this is the end. -/
def tokenStart (l : Lexer) : Position := (skipTrivia .none l.position l.rest).1

/-- **Seam.** Behind `before`, one of the tokens of a text starts or ends, and the lexer is in
ordinary code or in an interpolation there. -/
inductive Seam (source file : String) (ts : List Token) (before : List Char) : Prop
  | tokenStarts {read later : List Token} {t : Token} {l : Lexer} (tokens : ts = read ++ t :: later)
      (calls : Calls (start source file) read l) (outside : l.inText = false)
      (place : l.tokenStart = Position.start.advanceAll before) : Seam source file ts before
  | tokenEnds {read later : List Token} {t : Token} {l : Lexer} (tokens : ts = read ++ t :: later)
      (calls : Calls (start source file) (read ++ [t]) l) (outside : l.inText = false)
      (place : l.position = Position.start.advanceAll before) : Seam source file ts before

/-- What is read at a delimiter in a template is the delimiter. -/
theorem Scans.atDelimiter {rest gap lexeme : List Char} {w : TokenKind × String}
    {stage stage' : TemplateMode × Nat} (h : Scans rest stage gap lexeme w stage')
    (hm : stage.1.inText = true) (hd : AtDelimiter (gap ++ lexeme ++ rest)) (cs : List Char) :
    AtDelimiter (gap ++ lexeme ++ cs) := by
  cases h with
  | code hm' _ _ _ _ => rw [hm'] at hm; cases hm
  | closing => exact .inr (.inl ⟨cs, rfl⟩)
  | opening => exact .inr (.inr ⟨cs, rfl⟩)
  | text _ hne hbody hrest => exact absurd hd (hbody.not_atDelimiter hne hrest)

/-- The text of a template is read up to a delimiter, and is followed by it. -/
theorem Scans.of_fragment {rest gap lexeme : List Char} {w : TokenKind × String}
    {stage stage' : TemplateMode × Nat} (h : Scans rest stage gap lexeme w stage')
    (hw : w.1 = .fragment) : AtDelimiter rest ∧ stage'.1.inText = true := by
  cases h with
  | code hm _ _ hl hmark =>
    exact absurd hw (hl.kind_ne hm hmark).1
  | closing | opening => cases hw
  | text hm _ _ hrest => exact ⟨hrest, hm⟩

/-- Outside the text of a template one gap is as good as another. -/
theorem Scans.regap {rest gap gap' lexeme : List Char} {w : TokenKind × String}
    {stage stage' : TemplateMode × Nat} (h : Scans rest stage gap lexeme w stage')
    (hm : stage.1.inText = false) (hgap : IsGap false gap') :
    Scans rest stage gap' lexeme w stage' := by
  cases h with
  | code hm' _ hsettled hl hmark => exact .code hm' hgap hsettled hl hmark
  | closing hm' | opening hm' | text hm' _ _ _ => rw [hm'] at hm; cases hm

variable {l m : Lexer} {ts : List Token}

theorem Scans.settled {rest gap lexeme : List Char} {w : TokenKind × String}
    {stage stage' : TemplateMode × Nat} (h : Scans rest stage gap lexeme w stage')
    (hm : stage.1.inText = false) : Settled (lexeme ++ rest) := by
  cases h with
  | code _ _ hsettled _ _ => exact hsettled
  | closing hm' | opening hm' | text hm' _ _ _ => rw [hm'] at hm; cases hm

/-- A token starts behind the gap. -/
theorem Yields.tokenStart {l l' : Lexer} {t : Token} {gap lexeme : List Char}
    (h : Yields l t l' gap lexeme) (hl : l.inText = false) :
    l.tokenStart = l.position.advanceAll gap := by
  rw [Lexer.tokenStart, h.split, List.append_assoc,
    skipTrivia_of_isGap h.scans.isGap (h.scans.settled hl) nofun]

/-- Where the next token starts is where it says that it begins. -/
theorem beginsAt_tokenStart {l l' : Lexer} {t : Token} (h : l.next = (.ok (some t), l'))
    (hl : l.inText = false) : t.BeginsAt l.tokenStart := by
  obtain ⟨gap, lexeme, hy⟩ := next_yields h
  rw [hy.tokenStart hl]
  exact hy.beginsAt

/-- Calls that lead out of the text of a template read the delimiter that it ends with. -/
theorem Calls.atDelimiter (h : Calls l ts m) (hl : l.inText = true) (hm : m.inText = false)
    (hd : AtDelimiter l.rest) {xs : List Char} (hxs : l.rest = xs ++ m.rest) (cs : List Char) :
    AtDelimiter (xs ++ cs) := by
  cases h with
  | done => rw [hl] at hm; cases hm
  | token hn hcalls =>
    obtain ⟨gap, lexeme, hy⟩ := next_yields hn
    obtain ⟨taken, hrest, -⟩ := hcalls.split
    rw [hy.split] at hd
    have hfront := hy.scans.atDelimiter hl hd (taken ++ cs)
    rw [hy.split, hrest, ← List.append_assoc, List.append_cancel_right_eq] at hxs
    rwa [← hxs, List.append_assoc _ taken]

/-- **Any number of calls.** Calls that stop where blanks are put in, or in front of the gap before
that, go on to stop there. They have to stop outside the text of templates, since the blanks would
belong to it. -/
theorem Calls.insert (h : Calls l ts m) {blanks : List Char} (hb : ∀ c ∈ blanks, isSpace c = true)
    (hm : blanks = [] ∨ m.inText = false) {before front ys : List Char}
    (hl : l.rest = before ++ ys) (hfront : m.rest = front ++ ys) {l₂ : Lexer}
    (hl₂ : l₂.rest = before ++ (blanks ++ ys)) (hstage : l₂.stage = l.stage) :
    ∃ us m₂, Calls l₂ us m₂ ∧ us.map Token.word = ts.map Token.word ∧
      m₂.rest = front ++ (blanks ++ ys) ∧ m₂.stage = m.stage := by
  induction h generalizing l₂ before with
  | done =>
    obtain rfl : before = front := List.append_cancel_right (hl.symm.trans hfront)
    exact ⟨[], l₂, .done, rfl, hl₂, hstage⟩
  | @token l l₁ m t ts hn hcalls ih =>
    obtain ⟨gap, lexeme, hy⟩ := next_yields hn
    obtain ⟨taken, hrest, -⟩ := hcalls.split
    have hl₁ : l₁.rest = taken ++ front ++ ys := by rw [hrest, hfront, List.append_assoc]
    obtain rfl : before = gap ++ lexeme ++ (taken ++ front) := by
      rw [hy.split, hl₁, ← List.append_assoc] at hl
      exact (List.append_cancel_right hl).symm
    -- A text of a template ends with a delimiter, which a later call reads.
    have htext (hk : t.kind = .fragment) : AtDelimiter (taken ++ front ++ (blanks ++ ys)) := by
      obtain ⟨hd, hinText⟩ := hy.scans.of_fragment hk
      obtain rfl | hm := hm
      · rwa [hl₁] at hd
      · rw [List.append_assoc]
        exact hcalls.atDelimiter hinText hm hd hrest _
    have hscans : Scans (taken ++ front ++ (blanks ++ ys)) l₂.stage gap lexeme (t.kind, t.value)
        l₁.stage := by
      rw [hstage]
      exact (hl₁ ▸ hy.scans).insert hb htext
    obtain ⟨t₂, l₃, hn₂, hword, hl₃, hstage₃⟩ := next_of_scans hscans (by simpa using hl₂)
    obtain ⟨us, m₂, hcalls₂, hwords, hrest₂, hstage₂⟩ := ih hm hl₁ hfront hl₃ hstage₃
    refine ⟨t₂ :: us, m₂, .token hn₂ hcalls₂, ?_, hrest₂, hstage₂⟩
    rw [List.map_cons, List.map_cons, hwords]
    exact congrArg (· :: ts.map Token.word) hword

/-- The tokens up to the end of the text have these words. -/
def ReadsAll (l : Lexer) (ws : List (TokenKind × String)) : Prop :=
  ∃ ts m m', Calls l ts m ∧ m.next = (.ok none, m') ∧ ts.map Token.word = ws

/-- Calls up to the end yield the same words from another place. -/
theorem Calls.elsewhere (h : Calls l ts m) {m' : Lexer} (hend : m.next = (.ok none, m'))
    {l₂ : Lexer} (hrest : l₂.rest = l.rest) (hstage : l₂.stage = l.stage) :
    l₂.ReadsAll (ts.map Token.word) := by
  obtain ⟨us, m₂, hcalls, hwords, hrest₂, hstage₂⟩ := h.insert (List.forall_mem_nil _) (.inl rfl)
    (List.append_nil _).symm (List.append_nil _).symm (hrest.trans (List.append_nil _).symm) hstage
  obtain ⟨hgap, htext, -⟩ := next_ends hend
  have hrest₂ : m₂.rest = m.rest := by simpa using hrest₂
  have hinText : m₂.inText = m.inText := congrArg (fun stage => stage.1.inText) hstage₂
  obtain ⟨m₂', hend₂⟩ := next_of_ends (hrest₂ ▸ hgap) (by rwa [hrest₂, hinText])
  exact ⟨us, m₂, m₂', hcalls, hend₂, hwords⟩

/-- **The gap at a place.** Outside the text of templates a gap stands in front of the next token,
or of the end. With any gap in its place the tokens are the same. -/
theorem Calls.exists_gap (h : Calls l ts m) {m' : Lexer} (hend : m.next = (.ok none, m'))
    (hl : l.inText = false) : ∃ gap tail, l.rest = gap ++ tail ∧ IsGap tail.isEmpty gap ∧
      l.tokenStart = l.position.advanceAll gap ∧
      ∀ gap', IsGap tail.isEmpty gap' → ∀ l₂ : Lexer, l₂.rest = gap' ++ tail → l₂.stage = l.stage →
        l₂.ReadsAll (ts.map Token.word) := by
  cases h with
  | done =>
    -- All that is left is the gap in front of the end.
    have hgap := (next_ends hend).1
    have hstart := skipTrivia_of_isGap hgap settled_nil (fun _ => rfl) l.position
    rw [List.append_nil] at hstart
    refine ⟨l.rest, [], (List.append_nil _).symm, hgap, congrArg Prod.fst hstart,
      fun gap' hgap' l₂ hrest hstage => ?_⟩
    rw [List.append_nil] at hrest
    have hl₂ : l₂.inText = false := by
      rw [← hl]
      exact congrArg (fun stage => stage.1.inText) hstage
    obtain ⟨l', hl'⟩ := next_of_ends (hrest ▸ hgap') (by simp [hl₂])
    exact ⟨[], l₂, l', .done, hl', rfl⟩
  | @token _ l₁ _ t ts hn hcalls =>
    obtain ⟨gap, lexeme, hy⟩ := next_yields hn
    -- The lexeme is not empty, so the gap is followed by something whichever gap it is.
    obtain ⟨c, cs, rfl⟩ := List.exists_cons_of_ne_nil hy.scans.lexeme_ne
    refine ⟨gap, c :: cs ++ l₁.rest, ?_, hy.scans.isGap, hy.tokenStart hl,
      fun gap' hgap' l₂ hrest hstage => ?_⟩
    · rw [hy.split, List.append_assoc]
    · have hscans : Scans l₁.rest l₂.stage gap' (c :: cs) (t.kind, t.value) l₁.stage := by
        rw [hstage]
        exact hy.scans.regap hl hgap'
      obtain ⟨t₂, l₃, hn₂, hword, hl₃, hstage₃⟩ := next_of_scans hscans (by simpa using hrest)
      obtain ⟨us, m₂, m₂', hcalls₂, hend₂, hwords⟩ := hcalls.elsewhere hend hl₃ hstage₃
      refine ⟨t₂ :: us, m₂, m₂', .token hn₂ hcalls₂, hend₂, ?_⟩
      rw [List.map_cons, List.map_cons, hwords]
      exact congrArg (· :: ts.map Token.word) hword

/-- **What follows a seam** is what the lexer stands in front of, or that without the gap. -/
theorem Seam.exists_calls {source file : String} {read : List Token} {before after : List Char}
    {n n' : Lexer} (h : Seam source file (read ++ [endToken source file]) before)
    (hread : Calls (start source file) read n) (hend : n.next = (.ok none, n'))
    (hsource : source.toList = before ++ after) :
    ∃ first later m gap tail, Calls (start source file) first m ∧ m.inText = false ∧
      read = first ++ later ∧ m.rest = gap ++ tail ∧ IsGap tail.isEmpty gap ∧
      (m.rest = after ∨ tail = after) ∧
      ∀ gap', IsGap tail.isEmpty gap' → ∀ l₂ : Lexer, l₂.rest = gap' ++ tail → l₂.stage = m.stage →
        l₂.ReadsAll (later.map Token.word) := by
  cases h with
  | @tokenStarts first others t m tokens calls outside place =>
    -- The gap lies in front of the seam. The token starts behind the gap, and it starts at the
    -- seam; a line and a column determine a place in the text, so the two are one.
    obtain ⟨later, rfl, hlater⟩ := calls.onward hread hend
    obtain ⟨gap, tail, hrest, hgap, hstart, hagain⟩ := hlater.exists_gap hend outside
    obtain ⟨taken, hsplit, hposition⟩ := calls.split
    have hwhole : source.toList = taken ++ gap ++ tail := by
      rw [List.append_assoc, ← hrest]
      exact hsplit
    have hplace : Position.start.advanceAll (taken ++ gap) = Position.start.advanceAll before := by
      have hposition : m.position = Position.start.advanceAll taken := hposition
      rw [Position.advanceAll_append, ← hposition, ← hstart]
      exact place
    obtain ⟨-, htail⟩ := Position.advanceAll_inj (hwhole.symm.trans hsource)
      (congrArg Position.line hplace) (congrArg Position.column hplace)
    exact ⟨first, later, m, gap, tail, calls, outside, rfl, hrest, hgap, .inr htail, hagain⟩
  | @tokenEnds first others t m tokens calls outside place =>
    -- The gap, if there is one, lies behind the seam.
    obtain ⟨later, hread', hlater⟩ := calls.onward hread hend
    obtain ⟨gap, tail, hrest, hgap, -, hagain⟩ := hlater.exists_gap hend outside
    obtain ⟨taken, hsplit, hposition⟩ := calls.split
    have hplace : Position.start.advanceAll taken = Position.start.advanceAll before :=
      hposition.symm.trans place
    obtain ⟨-, hafter⟩ := Position.advanceAll_inj (hsplit.symm.trans hsource)
      (congrArg Position.line hplace) (congrArg Position.column hplace)
    exact ⟨_, later, m, gap, tail, calls, outside, hread', hrest, hgap, .inl hafter, hagain⟩

end Lexer

/-- **Blanks between tokens.** Blanks put in where a token starts or ends, outside the text of
templates, leave the kinds and the values of all tokens as they are. -/
theorem blanks_between_tokens {before blanks after file : String} {ts : List Token}
    (h : Lexer.tokenize (before ++ after) file = .ok ts)
    (hseam : Lexer.Seam (before ++ after) file ts before.toList)
    (hblanks : ∀ c ∈ blanks.toList, Lexer.isSpace c = true) :
    ∃ ts', Lexer.tokenize (before ++ blanks ++ after) file = .ok ts' ∧
      ts'.map Token.word = ts.map Token.word := by
  obtain ⟨read, n, n', hread, hend, rfl⟩ := Lexer.tokenize_eq_ok_iff.mp h
  obtain ⟨first, later, m, gap, tail, hfirst, hm, rfl, hrest, hgap, hafter, hagain⟩ :=
    hseam.exists_calls hread hend (String.toList_append ..)
  -- The blanks join the gap, at the front of it or behind it.
  obtain ⟨front, gap', hfront, hgap', hjoin⟩ : ∃ front gap', m.rest = front ++ after.toList ∧
      IsGap tail.isEmpty gap' ∧ front ++ (blanks.toList ++ after.toList) = gap' ++ tail := by
    obtain hafter | rfl := hafter
    · refine ⟨[], blanks.toList ++ gap, hafter, hgap.blanks_append hblanks, ?_⟩
      rw [← hafter, hrest, List.nil_append, List.append_assoc]
    · exact ⟨gap, gap ++ blanks.toList, hrest, hgap.append_blanks hblanks,
        (List.append_assoc ..).symm⟩
  have hstart : (Lexer.start (before ++ after) file).rest = before.toList ++ after.toList :=
    String.toList_append ..
  have hstart' : (Lexer.start (before ++ blanks ++ after) file).rest =
      before.toList ++ (blanks.toList ++ after.toList) := by
    simp [Lexer.start, String.toList_append]
  -- The tokens up to there are read as before, and with the other gap so are those that follow.
  obtain ⟨first', m', hfirst', hwords, hrest', hstage'⟩ :=
    hfirst.insert hblanks (.inr hm) hstart hfront hstart' rfl
  obtain ⟨later', l, l', hlater', hend', hwords'⟩ :=
    hagain gap' hgap' m' (hrest'.trans hjoin) hstage'
  refine ⟨first' ++ later' ++ [Lexer.endToken (before ++ blanks ++ after) file],
    Lexer.tokenize_eq_ok_iff.mpr ⟨_, l, l', hfirst'.append hlater', hend', rfl⟩, ?_⟩
  simp only [List.map_append, hwords, hwords']
  rfl

/-- In front of the two dots of a range, in an interpolation. -/
theorem blanks_between_tokens_range :
    let range : Token := ⟨.range, "..", ⟨4, 6⟩, 1, 5, "main"⟩
    let read : List Token := [⟨.backtick, "`", ⟨0, 1⟩, 1, 1, "main"⟩,
      ⟨.interpolationStart, "$\x7b", ⟨1, 3⟩, 1, 2, "main"⟩,
      ⟨.number, "1", ⟨3, 4⟩, 1, 4, "main"⟩]
    let later : List Token := [⟨.number, "2", ⟨6, 7⟩, 1, 7, "main"⟩,
      ⟨.interpolationEnd, "\x7d", ⟨7, 8⟩, 1, 8, "main"⟩,
      ⟨.backtick, "`", ⟨8, 9⟩, 1, 9, "main"⟩, ⟨.eof, "", ⟨9, 9⟩, 1, 10, "main"⟩]
    Lexer.tokenize ("`$\x7b1" ++ "..2\x7d`") "main" = .ok (read ++ range :: later) ∧
      Lexer.Seam ("`$\x7b1" ++ "..2\x7d`") "main" (read ++ range :: later) "`$\x7b1".toList ∧
      (∀ c ∈ "\r\n\t".toList, Lexer.isSpace c = true) ∧
      ∃ ts', Lexer.tokenize ("`$\x7b1" ++ "\r\n\t" ++ "..2\x7d`") "main" = .ok ts' ∧
        ts'.map Token.word = (read ++ range :: later).map Token.word := by
  intro range read later
  have htokens :
      Lexer.tokenize ("`$\x7b1" ++ "..2\x7d`") "main" = .ok (read ++ range :: later) := by
    rfl
  have hcalls :
      ∃ l, Lexer.Calls (Lexer.start ("`$\x7b1" ++ "..2\x7d`") "main") read l ∧ l.inText = false ∧
        l.tokenStart = Position.start.advanceAll "`$\x7b1".toList :=
    ⟨_, .token rfl (.token rfl (.token rfl .done)), rfl, rfl⟩
  obtain ⟨l, hcalls, hl, hstart⟩ := hcalls
  have hseam : Lexer.Seam ("`$\x7b1" ++ "..2\x7d`") "main" (read ++ range :: later)
      "`$\x7b1".toList := .tokenStarts rfl hcalls hl hstart
  have hblanks : ∀ c ∈ "\r\n\t".toList, Lexer.isSpace c = true := List.all_eq_true.mp rfl
  exact ⟨htokens, hseam, hblanks, blanks_between_tokens htokens hseam hblanks⟩

end ScriptLang
