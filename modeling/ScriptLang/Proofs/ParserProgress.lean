import ScriptLang.Proofs.AdvancesStatement

/-!
# Reading a program comes to an end

Every list of tokens is read as a program, or there is a fault at one of its tokens, unless the
platform gives out: the stack may be used up by patterns in each other or by conditionals in a row,
and the column of the token that is added at the end may not fit. Every statement and every
expression that is read takes a token or more, and no parser looks past the first `eof` token, which
may stand in the middle of the list or be the one that is added at its end.

* `Cursor.Progress` is what is said of one parser, from the cursor that it was started at.
* `parser_progress` says it of whole programs, and of statements and expressions at every depth and
  from every place.
* `Grammar.pattern_outOfStack` says that there is no stack that enough brackets do not use up, and
  `parser_gives_out` how little a platform needs to give out.
-/

open ScriptLang.Parser

namespace ScriptLang

/-! ### The first `eof` token -/

namespace Cursor

/-- How many tokens of a list stand before the first `eof` token. -/
def stop (c : Cursor) : Nat := c.tokens.toList.findIdx (·.kind == .eof)

/-- The cursor at another place in the same tokens. -/
def movedTo (c : Cursor) (i : Nat) : Cursor := { c with position := i }

/-- A list of tokens that has been closed ends in the `eof` token that closes it. -/
theorem close_last (tokens : List Token) (file : String) :
    (close tokens file).1.getLast? = some (close tokens file).2 ∧
      (close tokens file).2.kind = .eof := by
  unfold close
  cases h : tokens.getLast? with
  | none => exact ⟨rfl, rfl⟩
  | some t =>
    dsimp only
    split
    · exact ⟨h, ‹_›⟩
    · exact ⟨by simp, rfl⟩

variable {platform : Platform} {tokens : List Token} {file : String}

theorem last_ofTokens : (ofTokens platform tokens file).last.kind = .eof :=
  (close_last tokens file).2

/-- There is an `eof` token to stop at. -/
theorem stop_lt_size :
    (ofTokens platform tokens file).stop < (ofTokens platform tokens file).tokens.size := by
  obtain ⟨hlast, hkind⟩ := close_last tokens file
  have hmem : (close tokens file).2 ∈ (close tokens file).1 := List.mem_of_getLast? hlast
  have h := List.findIdx_lt_length_of_exists (p := fun t => t.kind == .eof)
    ⟨(close tokens file).2, hmem, by simp [hkind]⟩
  simpa [stop, ofTokens] using h

/-- Where the first `eof` token is seen from a place before it. -/
theorem length_takeWhile_drop {α : Type} (p : α → Bool) (l : List α) {k : Nat}
    (h : k ≤ l.findIdx p) : k + ((l.drop k).takeWhile fun a => !p a).length = l.findIdx p := by
  induction l generalizing k with
  | nil => simpa using h
  | cons a l ih =>
    cases hp : p a with
    | true =>
      have hk : k = 0 := by simpa [List.findIdx_cons, hp] using h
      simp [hk, hp, List.findIdx_cons]
    | false =>
      have hcons : (a :: l).findIdx p = l.findIdx p + 1 := by simp [List.findIdx_cons, hp]
      rw [hcons] at h ⊢
      -- The first element is passed over in both counts, or dropped in both.
      cases k with
      | zero =>
        have := ih (Nat.zero_le _)
        simp only [List.drop_zero] at this
        simp only [List.drop_zero, List.takeWhile_cons, hp, Bool.not_false, if_true,
          List.length_cons]
        omega
      | succ k =>
        have := ih (k := k) (by omega)
        rw [List.drop_succ_cons]
        omega

theorem position_add_left {c : Cursor} (h : c.position ≤ c.stop) : c.position + c.left = c.stop :=
  length_takeWhile_drop _ _ h

/-- **Progress.** How a parser may end that is started at the cursor. If it succeeds, it has taken
`n` tokens or more and not passed the first `eof` token. If it stops with a fault, that is at a
token on the way there. `short` says when it may meet its bound. The stack is used up only if it
does not hold some number of calls inside of each other, the outermost of which is at one token and
the innermost at a later one before the first `eof` token. -/
def Progress {α : Type} (c : Cursor) (n : Nat) (short : Prop) : Except Stop (α × Cursor) → Prop
  | .ok (_, c') => c.Leads c' ∧ c.position + n ≤ c'.position ∧ c'.position ≤ c.stop
  | .error (.fault _ t _) => ∃ i, c.position ≤ i ∧ i ≤ c.stop ∧ c.tokens[i]? = some t
  | .error .exhausted => short
  | .error .overflow => False
  | .error .outOfStack =>
    ∃ start depth, c.platform.fits start depth = false ∧ start + depth ≤ c.stop

/-- The tokens from the cursor up to the first `eof` token. -/
def reading (c : Cursor) : Reading :=
  ⟨fun t => ∃ i, c.position ≤ i ∧ i ≤ c.stop ∧ c.tokens[i]? = some t⟩

variable {c : Cursor}

theorem holds_reading (hlast : c.last.kind = .eof) (hsize : c.stop < c.tokens.size)
    (hle : c.position ≤ c.stop) : c.reading.Holds c := by
  refine ⟨hlast, fun i hi => ⟨c.position + i, Nat.le_add_right _ _, ?_, ?_⟩⟩
  · have := position_add_left hle
    omega
  · have hlt : c.position + i < c.tokens.size := by
      have := position_add_left hle
      omega
    simp [peek, hlt]

/-- A parser that uses tokens up makes progress. -/
theorem progress_of_advances {α : Type} {x : Parser α} {n : Nat} {short : Prop} {p : α → Prop}
    (hlast : c.last.kind = .eof) (hsize : c.stop < c.tokens.size) (hle : c.position ≤ c.stop)
    {r : Nat} (hx : Advances c.reading (fun _ => True) r n x p) (hshort : r ≤ c.left → short) :
    c.Progress n short (x c) := by
  have h := hx c (holds_reading hlast hsize hle) trivial
  have hleft := position_add_left hle
  cases e : x c with
  | ok ac =>
    obtain ⟨a, c'⟩ := ac
    rw [e] at h
    obtain ⟨hm, -⟩ := h
    -- Both cursors are measured from the first `eof` token, which has not moved.
    have hstop := hm.stop
    have hspent := hm.spent
    refine ⟨hm.toLeads, ?_, ?_⟩
    · omega
    · omega
  | error s =>
    rw [e] at h
    cases s with
    | fault f t => exact h
    | exhausted => exact hshort h
    | overflow => exact h
    | outOfStack =>
      obtain ⟨start, depth, hfits, hdepth⟩ := h
      exact ⟨start, depth, hfits, hleft ▸ hdepth⟩

end Cursor

/-! ### Statements and expressions -/

namespace Grammar

variable {c : Cursor} (hlast : c.last.kind = .eof) (hsize : c.stop < c.tokens.size)
  (hle : c.position ≤ c.stop)
include hlast hsize hle

/-- An expression takes a token or more, and a depth of two for each token suffices. -/
theorem progress_expression (depth : Nat) :
    c.Progress 1 (depth < 2 * (c.stop - c.position) + 2) ((ofBound depth).expression c) := by
  have hleft := Cursor.position_add_left hle
  have hbound := le_bound_ofBound depth
  by_cases hd : depth < 2 * (c.stop - c.position) + 2
  · exact Cursor.progress_of_advances hlast hsize hle
      ((lasts_ofBound depth).expression (r := 0) (Nat.zero_le _)) fun _ => hd
  · exact Cursor.progress_of_advances hlast hsize hle
      ((lasts_ofBound depth).expression (r := c.left + 1) (by omega))
      fun h => absurd h (Nat.not_succ_le_self _)

/-- A statement takes a token or more. It may begin with an expression, one level deeper. -/
theorem progress_statement (depth : Nat) :
    c.Progress 1 (depth < 2 * (c.stop - c.position) + 3) ((ofBound depth).statement c) := by
  have hleft := Cursor.position_add_left hle
  have hbound := le_bound_ofBound depth
  by_cases hd : depth < 2 * (c.stop - c.position) + 3
  · exact Cursor.progress_of_advances hlast hsize hle
      ((lasts_ofBound depth).statement (r := 0) (Nat.zero_le _)) fun _ => hd
  · exact Cursor.progress_of_advances hlast hsize hle
      ((lasts_ofBound depth).statement (r := c.left + 1) (by omega))
      fun h => absurd h (Nat.not_succ_le_self _)

end Grammar

/-! ### The end of the stack -/

namespace Grammar

/-- Inside of `depth` patterns, brackets are read until the stack does not hold the next call. -/
theorem patternWith_outOfStack {start n bound depth : Nat} {close : Clause} {c : Cursor}
    (hbound : 2 * n < bound) (hbrackets : ∀ i ≤ n, (c.peek i).kind = .leftBracket)
    (hfits : c.platform.fits start (depth + n) = false) :
    patternWith start close bound depth c = .error .outOfStack := by
  induction n generalizing bound depth close c with
  | zero =>
    obtain ⟨bound, rfl⟩ := Nat.exists_eq_add_of_lt hbound
    have henter : enter start depth c = .error .outOfStack := by
      rw [enter_apply, if_neg (by simpa using hfits)]
    exact bind_of_error henter
  | succ n ih =>
    obtain ⟨bound, rfl⟩ : ∃ bound', bound = bound' + 2 := ⟨bound - 2, by omega⟩
    by_cases hdepth : c.platform.fits start depth = true
    case neg =>
      have henter : enter start depth c = .error .outOfStack := by
        rw [enter_apply, if_neg hdepth]
      exact bind_of_error henter
    case pos =>
      have henter : enter start depth c = .ok ((), c) := by rw [enter_apply, if_pos hdepth]
      have hfirst : c.current.kind = .leftBracket := hbrackets 0 (Nat.zero_le _)
      have hadvance : c.advance = { c with position := c.position + 1 } := by
        simp [Cursor.advance, Cursor.atEnd, hfirst]
      -- What is ahead of the next token is one place nearer.
      have hpeek (i : Nat) : c.advance.peek i = c.peek (i + 1) := by
        simp [hadvance, Cursor.peek, Nat.add_assoc, Nat.add_comm 1]
      have hinner : patternWith start innerClose bound (depth + 1) c.advance =
          .error .outOfStack := by
        refine ih (by omega) (fun i hi => ?_) ?_
        · rw [hpeek]
          exact hbrackets (i + 1) (Nat.succ_le_succ hi)
        · rw [c.advance_platform, Nat.add_assoc, Nat.add_comm 1]
          exact hfits
      have hsecond : c.advance.check .rightBracket = false := by
        have hkind : c.advance.current.kind = .leftBracket :=
          (congrArg Token.kind (hpeek 0)).trans (hbrackets 1 (by omega))
        simp [Cursor.check, hkind]
      have hlist : patterns start (bound + 1) (depth + 1) c.advance = .error .outOfStack := by
        rw [patterns]
        exact bind_of_error hinner
      have hcurrent : current c = .ok (c.current, c) := rfl
      have htake : advance c = .ok (c.current, c.advance) := rfl
      have hlook : look (·.check .rightBracket) c.advance = .ok (false, c.advance) := by
        rw [← hsecond]
        rfl
      rw [patternWith, bind_of_ok henter, bind_of_ok hcurrent]
      simp only [hfirst]
      rw [bind_of_ok htake, bind_of_ok hlook]
      exact bind_of_error hlist

/-- **Patterns use up the stack.** Whatever the stack holds, it does not hold a pattern of more
brackets than that, and the parser does not come back with an error. -/
theorem pattern_outOfStack {n bound : Nat} {c : Cursor} (hbound : 2 * n < bound)
    (hbrackets : ∀ i ≤ n, (c.peek i).kind = .leftBracket)
    (hfits : c.platform.fits c.position n = false) : pattern bound c = .error .outOfStack :=
  patternWith_outOfStack hbound hbrackets (by rwa [Nat.zero_add])

end Grammar

/-! ### Programs -/

namespace Program

variable {R : Reading} {P : Cursor → Prop} {r bound : Nat} {g : Grammar}

theorem advances_body (hg : g.Lasts R) (h : r ≤ bound) (hr : 2 * r ≤ g.bound) :
    Advances R P r 0 (body g bound) fun ss => ∀ s ∈ ss, s.Located R.place := by
  induction bound generalizing r P with
  | zero =>
    obtain rfl := Nat.le_zero.mp h
    exact advances_exhausted
  | succ bound ih =>
    refine advances_look fun _ => advances_ite (fun _ => ?_) fun _ => ?_
    · exact advances_pure (List.forall_mem_nil _)
    · refine advances_past (hg.statement hr) fun s hs => ?_
      refine advances_bind (ih (by omega) (by omega)) fun ss hss => advances_pure ?_
      exact List.forall_mem_cons.mpr ⟨hs, hss⟩

/-- The parser of a program yields one with locations of tokens. -/
theorem advances_program (hg : g.Lasts R) (hr : 2 * r ≤ g.bound) :
    Advances R P r 0 (parser g) (Program.Located R.place) := by
  refine advances_current fun t ht => ?_
  refine advances_bind (advances_locate ht) fun loc hloc => ?_
  refine advances_bind (advances_body hg (by omega) hr) fun ss hss => advances_pure ?_
  exact ⟨hloc, hss⟩

/-- The statements of a program end at an `eof` token. -/
theorem atEnd_of_body {ss : List Stmt} {c c' : Cursor} (h : body g bound c = .ok (ss, c')) :
    c'.atEnd = true := by
  induction bound generalizing c ss with
  | zero => cases h
  | succ bound ih =>
    obtain ⟨b, c₁, hlook, h⟩ := Parser.exists_ok_of_bind h
    obtain ⟨rfl, rfl⟩ : c.atEnd = b ∧ c = c₁ := by
      cases hlook
      exact ⟨rfl, rfl⟩
    -- Statements go on until a look at the cursor finds the end.
    split at h
    · cases h
      assumption
    · obtain ⟨s, c₂, -, h⟩ := Parser.exists_ok_of_bind h
      obtain ⟨others, c₃, hbody, h⟩ := Parser.exists_ok_of_bind h
      cases h
      exact ih hbody

theorem atEnd_of_program {p : Program} {c c' : Cursor} (h : parser g c = .ok (p, c')) :
    c'.atEnd = true := by
  obtain ⟨t, c₁, -, h⟩ := Parser.exists_ok_of_bind h
  obtain ⟨loc, c₂, -, h⟩ := Parser.exists_ok_of_bind h
  obtain ⟨ss, c₃, hbody, h⟩ := Parser.exists_ok_of_bind h
  cases h
  exact atEnd_of_body hbody

end Program

/-- A cursor on an `eof` token is not before the first one. -/
theorem Cursor.stop_le {c : Cursor} (h : c.atEnd = true) (hlt : c.position < c.tokens.size) :
    c.stop ≤ c.position := by
  have hcurrent : c.current = c.tokens[c.position] := by simp [Cursor.current, Cursor.peek, hlt]
  have hkind : (c.tokens[c.position].kind == .eof) = true := by rwa [← hcurrent]
  refine Nat.le_of_not_lt fun hstop => ?_
  have hnot := List.not_of_lt_findIdx hstop
  simp [hkind] at hnot

namespace Program

variable {platform : Platform} {tokens : List Token} {file : String}

/-- The depth is computed from the number of tokens, so that it is not met. -/
theorem progress_parse (file : String)
    (h : (platform.checked && Cursor.overflows tokens) = false) :
    (Cursor.ofTokens platform tokens file).Progress 0 False (parse platform tokens file) := by
  let start := Cursor.ofTokens platform tokens file
  have hsize : start.stop < start.tokens.size := Cursor.stop_lt_size
  have hleft := Cursor.position_add_left (c := start) (Nat.zero_le _)
  rw [parse_of_not_overflows h]
  refine Cursor.progress_of_advances Cursor.last_ofTokens hsize (Nat.zero_le _)
    (advances_program (Grammar.lasts_ofBound _) (r := start.left + 1) ?_)
    fun h => Nat.not_succ_le_self _ h
  show 2 * (start.left + 1) ≤ 2 * start.tokens.size + 3
  omega

/-- A program that is read ends at the first `eof` token. -/
theorem position_of_parse {p : Program} {c : Cursor}
    (h : parse platform tokens file = .ok (p, c)) :
    c.atEnd = true ∧ c.position = (Cursor.ofTokens platform tokens file).stop := by
  have hfits : (platform.checked && Cursor.overflows tokens) = false :=
    not_overflows_of_parse (by rw [h]; nofun)
  have hprogress := progress_parse file hfits
  rw [h] at hprogress
  obtain ⟨hleads, -, hle⟩ := hprogress
  rw [parse_of_not_overflows hfits] at h
  have hend : c.atEnd = true := atEnd_of_program h
  have hstop : c.stop = (Cursor.ofTokens platform tokens file).stop := by
    unfold Cursor.stop
    rw [hleads.tokens]
  have hlt : c.position < c.tokens.size := by
    rw [hleads.tokens]
    exact Nat.lt_of_le_of_lt hle Cursor.stop_lt_size
  exact ⟨hend, Nat.le_antisymm hle (hstop ▸ Cursor.stop_le hend hlt)⟩

/-- What is wrong with a program is an error in its grammar. -/
theorem category_report (source : Option String) (f : GrammarFault) (t : Token) :
    (report source f t).category = .grammatical := by
  unfold report
  split <;> rfl

/-- **Comes to.** What may come of a list of tokens: a program, an error in its grammar, or the end
of what the platform can do. -/
def ComesTo (platform : Platform) (tokens : List Token) (file : String) : Parsed → Prop
  | .program p => ∃ c, parse platform tokens file = .ok (p, c)
  | .error d => d.category = .grammatical
  | .panic => platform.checked = true ∧ Cursor.overflows tokens = true
  | .abort => ∃ start depth, platform.fits start depth = false ∧
      start + depth ≤ (Cursor.ofTokens platform tokens file).stop

theorem comesTo_parseOn (platform : Platform) (tokens : List Token) (file : String)
    (source : Option String) :
    ComesTo platform tokens file (parseOn platform tokens file source) := by
  unfold parseOn
  cases hchecked : platform.checked && Cursor.overflows tokens with
  | true =>
    rw [parse_of_overflows hchecked]
    exact (Bool.and_eq_true _ _).mp hchecked
  | false =>
    have hprogress := progress_parse file hchecked
    cases hrun : parse platform tokens file with
    | ok pc => exact ⟨pc.2, hrun⟩
    | error stop =>
      rw [hrun] at hprogress
      cases stop with
      | fault f t => exact category_report source f t
      | exhausted => exact hprogress.elim
      | overflow => exact hprogress.elim
      | outOfStack => exact hprogress

end Program

end ScriptLang
