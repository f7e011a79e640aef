import ScriptLang.Proofs.ParserProgress
import ScriptLang.Proofs.PlacelessTrees

/-!
# Two runs of one parser

Two lists of tokens may hold the same words and differ in where these stand. A parser that is run on
both looks at the words, and at one thing besides: whether a bracket touches what is before it.

* `Token.Relaid` says that two lists differ in nothing else. A `Relayout` is a pair of such lists,
  each closed by its `eof` token.
* `Relayout.Twins` relates the tokens of the two lists at one index, and `Relayout.Abreast` the
  cursors of the two lists at one place.
* `Parser.Concurs` is the judgement about two runs: both succeed, with results that belong together
  and cursors that are abreast again, or both stop at twins with faults that say the same, or both
  meet the bound, or both use the stack up.

The judgement is about two parsers, since the second half of a parser depends on the result of the
first half, which holds other locations in each run.
-/

namespace ScriptLang

namespace Token

/-- What a token says, without its place. -/
def word (t : Token) : TokenKind × String := (t.kind, t.value)

/-- Whether the token at an index starts exactly where the one before it ends. -/
def joined (ts : List Token) : Nat → Bool
  | 0 => false
  | i + 1 =>
    match ts[i]?, ts[i + 1]? with
    | some t, some u => t.span.adjacentTo u.span
    | _, _ => false

/-- **Relaid.** The lists hold the same words, and every opening bracket touches the token before it
in both lists or in neither. -/
structure Relaid (ts ts' : List Token) : Prop where
  words : ts.map word = ts'.map word
  brackets : ∀ i (h : i < ts.length), ts[i].kind = .leftBracket → joined ts i = joined ts' i

theorem joined_append {ts : List Token} {i : Nat} (h : i < ts.length) (us : List Token) :
    joined (ts ++ us) i = joined ts i := by
  cases i with
  | zero => rfl
  | succ i =>
    have hi : i < ts.length := Nat.lt_of_succ_lt h
    simp only [joined, List.getElem?_append_left hi, List.getElem?_append_left h]

namespace Relaid

variable {ts ts' : List Token}

theorem length_eq (h : Relaid ts ts') : ts.length = ts'.length := by
  simpa using congrArg List.length h.words

/-- Tokens at one index say the same. -/
theorem word_eq (h : Relaid ts ts') {i : Nat} {t t' : Token} (ht : ts[i]? = some t)
    (ht' : ts'[i]? = some t') : t.word = t'.word := by
  have hi := congrArg (·[i]?) h.words
  simpa [ht, ht'] using hi

/-- A token of one list has another one at its index. -/
theorem exists_twin (h : Relaid ts ts') {i : Nat} {t : Token} (ht : ts[i]? = some t) :
    ∃ t', ts'[i]? = some t' ∧ t.word = t'.word := by
  have hi : i < ts'.length := by
    rw [← h.length_eq]
    exact (List.getElem?_eq_some_iff.mp ht).1
  have ht' : ts'[i]? = some ts'[i] := List.getElem?_eq_getElem hi
  exact ⟨ts'[i], ht', h.word_eq ht ht'⟩

/-- Another `eof` token at the end of each list changes nothing. -/
theorem concat (h : Relaid ts ts') {t t' : Token} (hword : t.word = t'.word)
    (ht : t.kind = .eof) : Relaid (ts ++ [t]) (ts' ++ [t']) := by
  refine ⟨by simp [h.words, hword], fun i hlt hk => ?_⟩
  by_cases hi : i < ts.length
  · rw [List.getElem_append_left hi] at hk
    rw [joined_append hi, joined_append (h.length_eq ▸ hi)]
    exact h.brackets i hi hk
  · -- What is not in the list is the `eof` token, which is no bracket.
    rw [List.getElem_append_right (Nat.le_of_not_lt hi)] at hk
    simp [ht] at hk

end Relaid

end Token

namespace Cursor

variable {ts ts' : List Token}

/-- Closing two lists keeps what they have in common. -/
theorem relaid_close (h : Token.Relaid ts ts') (file file' : String) :
    Token.Relaid (close ts file).1 (close ts' file').1 := by
  have hlast : ts.getLast?.map Token.word = ts'.getLast?.map Token.word := by
    simpa using congrArg List.getLast? h.words
  -- Both lists are empty, or their last tokens are of one kind: an `eof` token is added to both of
  -- them or to neither.
  cases ht : ts.getLast? with
  | none =>
    rw [ht] at hlast
    have ht' : ts'.getLast? = none := by simpa using hlast.symm
    obtain rfl := List.getLast?_eq_none_iff.mp ht
    obtain rfl := List.getLast?_eq_none_iff.mp ht'
    refine ⟨rfl, fun i hi _ => ?_⟩
    obtain rfl : i = 0 := Nat.lt_one_iff.mp hi
    rfl
  | some t =>
    rw [ht] at hlast
    obtain ⟨t', ht', hword⟩ := Option.map_eq_some_iff.mp hlast.symm
    have hkind : t'.kind = t.kind := congrArg Prod.fst hword
    simp only [close, ht, ht', hkind]
    split
    · exact h
    · exact h.concat rfl rfl

end Cursor

/-- A pair of closed lists of tokens that differ in layout only, each with its last token. -/
structure Relayout where
  one : List Token
  other : List Token
  last : Token
  last' : Token
  relaid : Token.Relaid one other
  one_last : one.getLast? = some last
  other_last : other.getLast? = some last'
  closed : last.kind = .eof

namespace Relayout

/-- Two lists that differ in layout only, closed. -/
def ofTokens {ts ts' : List Token} (h : Token.Relaid ts ts') (file file' : String) : Relayout where
  one := (Cursor.close ts file).1
  other := (Cursor.close ts' file').1
  last := (Cursor.close ts file).2
  last' := (Cursor.close ts' file').2
  relaid := Cursor.relaid_close h file file'
  one_last := (Cursor.close_last ts file).1
  other_last := (Cursor.close_last ts' file').1
  closed := (Cursor.close_last ts file).2

/-- Tokens at one index of the two lists. -/
structure Twins (L : Relayout) (t t' : Token) : Prop where
  kind : t'.kind = t.kind
  value : t'.value = t.value
  index : ∃ i : Nat, L.one[i]? = some t ∧ L.other[i]? = some t'

/-- Cursors at one place of the two lists, on one platform. -/
structure Abreast (L : Relayout) (c c' : Cursor) : Prop where
  platform : c'.platform = c.platform
  tokens : c.tokens = L.one.toArray
  tokens' : c'.tokens = L.other.toArray
  last : c.last = L.last
  last' : c'.last = L.last'
  position : c'.position = c.position

variable {L : Relayout} {t t' : Token} {c c' : Cursor}

theorem twins_at {i : Nat} (ht : L.one[i]? = some t) (ht' : L.other[i]? = some t') :
    L.Twins t t' := by
  have hword := L.relaid.word_eq ht ht'
  exact ⟨(congrArg Prod.fst hword).symm, (congrArg Prod.snd hword).symm, i, ht, ht'⟩

theorem twins_last : L.Twins L.last L.last' := by
  have hone := L.one_last
  have hother := L.other_last
  rw [List.getLast?_eq_getElem?] at hone hother
  rw [← L.relaid.length_eq] at hother
  exact twins_at hone hother

/-- A twin is the same token at another place. -/
theorem Twins.exists_eq (h : L.Twins t t') :
    ∃ span line column file, t' = ⟨t.kind, t.value, span, line, column, file⟩ := by
  obtain ⟨kind, value, span, line, column, file⟩ := t'
  exact ⟨span, line, column, file, by rw [← h.kind, ← h.value]⟩

namespace Abreast

/-- Ahead of both cursors are twins, also past the end. -/
theorem peek (h : L.Abreast c c') (offset : Nat) :
    L.Twins (c.peek offset) (c'.peek offset) := by
  simp only [Cursor.peek, Array.getD_eq_getD_getElem?, h.tokens, h.tokens', h.position, h.last,
    h.last', List.getElem?_toArray]
  cases ht : L.one[c.position + offset]? with
  | none =>
    have ht' : L.other[c.position + offset]? = none := by
      rw [List.getElem?_eq_none_iff] at ht ⊢
      rwa [← L.relaid.length_eq]
    rw [ht']
    exact twins_last
  | some t =>
    obtain ⟨t', ht', -⟩ := L.relaid.exists_twin ht
    rw [ht']
    exact twins_at ht ht'

theorem current (h : L.Abreast c c') : L.Twins c.current c'.current := h.peek 0

theorem check (h : L.Abreast c c') (kind : TokenKind) : c.check kind = c'.check kind := by
  simp only [Cursor.check, h.current.kind]

theorem atEnd (h : L.Abreast c c') : c.atEnd = c'.atEnd := h.check .eof

theorem checkKeyword (h : L.Abreast c c') (word : String) :
    c.checkKeyword word = c'.checkKeyword word := by
  simp only [Cursor.checkKeyword, Token.isKeyword, Token.is, h.current.kind, h.current.value]

theorem checkOperator (h : L.Abreast c c') (symbol : String) :
    c.checkOperator symbol = c'.checkOperator symbol := by
  simp only [Cursor.checkOperator, Token.isOperator, Token.is, h.current.kind, h.current.value]

theorem keyword? (h : L.Abreast c c') : c.keyword? = c'.keyword? := by
  simp only [Cursor.keyword?, h.current.kind, h.current.value]

theorem closesBlock (h : L.Abreast c c') : Parser.closesBlock c = Parser.closesBlock c' := by
  simp only [Parser.closesBlock, h.keyword?]

theorem endsBlock (h : L.Abreast c c') :
    (c.atEnd || Parser.closesBlock c) = (c'.atEnd || Parser.closesBlock c') := by
  rw [h.atEnd, h.closesBlock]

theorem endsExpression (h : L.Abreast c c') :
    Parser.endsExpression c = Parser.endsExpression c' := by
  simp only [Parser.endsExpression, h.current.kind, h.current.value]

theorem advance (h : L.Abreast c c') : L.Abreast c.advance c'.advance := by
  refine ⟨by simp [h.platform], by simp [h.tokens], by simp [h.tokens'], by simp [h.last],
    by simp [h.last'], ?_⟩
  unfold Cursor.advance
  rw [h.atEnd]
  split
  · exact h.position
  · exact congrArg (· + 1) h.position

/-- Both cursors stand on a bracket that touches the token before it, or neither does. -/
theorem bracketAdjacent (h : L.Abreast c c') :
    (c.check .leftBracket && c.adjacent) = (c'.check .leftBracket && c'.adjacent) := by
  rw [← h.check]
  cases hcheck : c.check .leftBracket with
  | false => rfl
  | true =>
    have hkind : c.current.kind = .leftBracket := by simpa [Cursor.check] using hcheck
    simp only [Bool.true_and, Cursor.adjacent, Cursor.previous?, h.position, h.tokens, h.tokens',
      List.getElem?_toArray]
    cases hposition : c.position with
    | zero => rfl
    | succ i =>
      dsimp only
      -- A bracket is not the last token, so it is in the list.
      have hlt : i + 1 < L.one.length := by
        refine Nat.lt_of_not_le fun hle => ?_
        have hcurrent : c.current = L.last := by
          simp [Cursor.current, Cursor.peek, h.tokens, h.last, hposition, hle]
        rw [hcurrent, L.closed] at hkind
        cases hkind
      have hlt' : i + 1 < L.other.length := L.relaid.length_eq ▸ hlt
      have hcurrent : c.current = L.one[i + 1] := by
        simp [Cursor.current, Cursor.peek, h.tokens, hposition, hlt]
      have hcurrent' : c'.current = L.other[i + 1] := by
        simp [Cursor.current, Cursor.peek, h.tokens', h.position, hposition, hlt']
      have hbracket := L.relaid.brackets (i + 1) hlt (hcurrent ▸ hkind)
      have hi : i < L.one.length := Nat.lt_of_succ_lt hlt
      have hi' : i < L.other.length := Nat.lt_of_succ_lt hlt'
      simpa [Token.joined, hlt, hlt', hi, hi', hcurrent, hcurrent'] using hbracket

end Abreast

end Relayout

/-- After a token the cursor remembers it. -/
theorem Cursor.previous?_advance {c : Cursor} (hlast : c.last.kind = .eof)
    (h : c.atEnd = false) : c.advance.previous? = some c.current := by
  have hadvance : c.advance = { c with position := c.position + 1 } := by simp [advance, h]
  have hlt : c.position < c.tokens.size := by
    refine Nat.lt_of_not_le fun hle => ?_
    have hcurrent : c.current = c.last := by simp [current, peek, hle]
    simp [atEnd, hcurrent, hlast] at h
  rw [hadvance]
  simp [previous?, current, peek, hlt]

/-- The faults are reported alike. -/
structure GrammarFault.Agrees (f f' : GrammarFault) : Prop where
  code : f.code = f'.code
  message : f.message = f'.message
  advice : f.advice = f'.advice

theorem GrammarFault.Agrees.refl (f : GrammarFault) : f.Agrees f := ⟨rfl, rfl, rfl⟩

/-! ### The judgement -/

/-- The two look the same to `f`. -/
abbrev Agree {α γ : Type} (f : α → γ) (a a' : α) : Prop := f a = f a'

namespace Parser

variable {α β α' β' : Type} {L : Relayout} {p : α → α' → Prop} {q : β → β' → Prop}

/-- How two runs may end. -/
inductive Alike (L : Relayout) (p : α → α' → Prop) :
    Except Stop (α × Cursor) → Except Stop (α' × Cursor) → Prop
  | ok {a : α} {a' : α'} {c c' : Cursor} (result : p a a') (cursor : L.Abreast c c') :
    Alike L p (.ok (a, c)) (.ok (a', c'))
  | fault {f f' : GrammarFault} {t t' : Token} {consumed consumed' : Ghost Nat}
    (same : f.Agrees f') (shows : L.Twins t t') :
    Alike L p (.error (.fault f t consumed)) (.error (.fault f' t' consumed'))
  | exhausted : Alike L p (.error .exhausted) (.error .exhausted)
  | outOfStack : Alike L p (.error .outOfStack) (.error .outOfStack)

/-- **Concurs.** From cursors that are abreast, the two parsers end alike. -/
def Concurs (L : Relayout) (x : Parser α) (y : Parser α') (p : α → α' → Prop) : Prop :=
  ∀ c c', L.Abreast c c' → Alike L p (x c) (y c')

variable {x : Parser α} {x' : Parser α'} {f : α → Parser β} {f' : α' → Parser β'}

/-! ### Rules -/

theorem concurs_pure {a : α} {a' : α'} (h : p a a') : Concurs L (pure a) (pure a') p :=
  fun _ _ hc => .ok h hc

theorem concurs_fail {g g' : GrammarFault} {t t' : Token} (hg : g.Agrees g') (ht : L.Twins t t') :
    Concurs L (fail g t) (fail g' t') p := fun _ _ _ => .fault hg ht

theorem concurs_exhausted : Concurs L (exhausted : Parser α) (exhausted : Parser α') p :=
  fun _ _ _ => .exhausted

/-- One parser after the other. -/
theorem concurs_bind (hx : Concurs L x x' p) (hf : ∀ a a', p a a' → Concurs L (f a) (f' a') q) :
    Concurs L (x >>= f) (x' >>= f') q := by
  intro c c' hc
  have h := hx c c' hc
  change Alike L q (Except.bind (x c) fun r => f r.1 r.2) (Except.bind (x' c') fun r => f' r.1 r.2)
  revert h
  generalize x c = r
  generalize x' c' = r'
  rintro (⟨ha, hc₁⟩ | ⟨hg, ht⟩ | _ | _)
  · exact hf _ _ ha _ _ hc₁
  · exact .fault hg ht
  · exact .exhausted
  · exact .outOfStack

/-- What follows a value that is there already. -/
theorem concurs_with {a : α} {a' : α'} (h : Concurs L (f a) (f' a') q) :
    Concurs L (pure a >>= f) (pure a' >>= f') q := h

theorem concurs_ite {b : Prop} [Decidable b] {y : Parser α} {y' : Parser α'}
    (hx : Concurs L x x' p) (hy : Concurs L y y' p) :
    Concurs L (if b then x else y) (if b then x' else y') p := by
  split
  · exact hx
  · exact hy

/-! ### Looking -/

section Look

variable {γ : Type} {g : Cursor → γ} {k : γ → Parser β} {k' : γ → Parser β'}

/-- What follows a look that shows the same in both runs. -/
theorem concurs_look (hg : ∀ c c', L.Abreast c c' → g c = g c')
    (hk : ∀ a, Concurs L (k a) (k' a) q) : Concurs L (look g >>= k) (look g >>= k') q := by
  intro c c' hc
  have h := hk (g c) c c' hc
  change Alike L q (k (g c) c) (k' (g c') c')
  rwa [← hg c c' hc]

end Look

theorem concurs_current : Concurs L current current L.Twins :=
  fun _ _ hc => .ok hc.current hc

/-- Locations are not compared. -/
theorem concurs_locate {t t' : Token} : Concurs L (locate t) (locate t') fun _ _ => True :=
  fun _ _ hc => .ok trivial hc

/-- The stack is the same in both runs. -/
theorem concurs_enter (start depth : Nat) :
    Concurs L (enter start depth) (enter start depth) fun _ _ => True := by
  intro c c' hc
  rw [enter_apply, enter_apply, hc.platform]
  split
  · exact .ok trivial hc
  · exact .outOfStack

theorem concurs_failHere (fault : GrammarFault) :
    Concurs L (failHere fault : Parser α) (failHere fault : Parser α') p :=
  concurs_bind concurs_current fun _ _ ht => concurs_fail (.refl _) ht

/-! ### Consuming -/

theorem concurs_advance : Concurs L advance advance L.Twins :=
  fun _ _ hc => .ok hc.current hc.advance

theorem concurs_eatIf {test : Cursor → Bool} (h : ∀ c c', L.Abreast c c' → test c = test c') :
    Concurs L (eatIf test) (eatIf test) Eq := by
  refine concurs_look h fun b => concurs_ite ?_ (concurs_pure rfl)
  exact concurs_bind concurs_advance fun _ _ _ => concurs_pure rfl

section Marks

variable {y z : Parser β} {y' z' : Parser β'} (hy : Concurs L y y' q) (hz : Concurs L z z' q)
include hy hz

/-- What follows a token that is eaten, or not, in both runs. -/
theorem concurs_eatThen {test : Cursor → Bool} (h : ∀ c c', L.Abreast c c' → test c = test c') :
    Concurs L (eatIf test >>= fun b => if b = true then y else z)
      (eatIf test >>= fun b => if b = true then y' else z') q := by
  refine concurs_bind (concurs_eatIf h) fun b b' hb => ?_
  obtain rfl := hb
  exact concurs_ite hy hz

theorem concurs_eat (kind : TokenKind) :
    Concurs L (eat kind >>= fun b => if b = true then y else z)
      (eat kind >>= fun b => if b = true then y' else z') q :=
  concurs_eatThen hy hz fun _ _ h => h.check kind

theorem concurs_eatWord (word : String) :
    Concurs L (eatWord word >>= fun b => if b = true then y else z)
      (eatWord word >>= fun b => if b = true then y' else z') q :=
  concurs_eatThen hy hz fun _ _ h => h.checkKeyword word

theorem concurs_eatOperator (symbol : String) :
    Concurs L (eatOperator symbol >>= fun b => if b = true then y else z)
      (eatOperator symbol >>= fun b => if b = true then y' else z') q :=
  concurs_eatThen hy hz fun _ _ h => h.checkOperator symbol

end Marks

theorem concurs_expect (kind : TokenKind) (clause : Clause) :
    Concurs L (expect kind clause) (expect kind clause) L.Twins := by
  refine concurs_bind concurs_current fun t t' ht => ?_
  obtain ⟨span, line, column, file, rfl⟩ := ht.exists_eq
  exact concurs_ite concurs_advance (concurs_fail ⟨rfl, rfl, rfl⟩ ht)

theorem concurs_expectText (kind : TokenKind) (text : String) (clause : Clause) :
    Concurs L (expectText kind text clause) (expectText kind text clause) L.Twins := by
  refine concurs_bind concurs_current fun t t' ht => ?_
  obtain ⟨span, line, column, file, rfl⟩ := ht.exists_eq
  exact concurs_ite concurs_advance (concurs_fail ⟨rfl, rfl, rfl⟩ ht)

theorem concurs_expectWords (words : List String) (clause : Clause) :
    Concurs L (expectWords words clause) (expectWords words clause) L.Twins := by
  refine concurs_bind concurs_current fun t t' ht => ?_
  obtain ⟨span, line, column, file, rfl⟩ := ht.exists_eq
  exact concurs_ite concurs_advance (concurs_fail ⟨rfl, rfl, rfl⟩ ht)

theorem concurs_expectWord (word : String) (clause : Clause) :
    Concurs L (expectWord word clause) (expectWord word clause) L.Twins :=
  concurs_expectWords _ _

theorem concurs_expectName (clause : Clause) :
    Concurs L (expectName clause) (expectName clause) L.Twins := by
  refine concurs_bind concurs_current fun t t' ht => ?_
  obtain ⟨span, line, column, file, rfl⟩ := ht.exists_eq
  exact concurs_ite concurs_advance (concurs_fail ⟨rfl, rfl, rfl⟩ ht)

end Parser

end ScriptLang
