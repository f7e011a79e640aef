import ScriptLang.Calendar.Instant
import ScriptLang.Proofs.LegibleNumbers

/-!
# Dates are formatted in one pass

A pattern is filled by replacing the tokens one after the other, each in the whole text that the
ones before it left. So a later replacement could find its token in a text that was put in, or in
one that was put in and what stands beside it.

* `Replace.onePass` reads a text once and replaces every token where it stands.
* `Replace.Separate` says of tokens and their texts that no token shares a character with another
  token or with a text that is put in, and that none of them is empty. Then what is put in is never
  part of a token, and keeps apart what was apart (`Replace.isPrefix_of_onePass`).
* So replacing one more token in the outcome of a pass is a pass with one more token
  (`Replace.onePass_onePass`), and replacing all of them in turn is one pass
  (`Replace.foldl_all_eq_inOnePass`).
* Years and the other fields are written with digits and perhaps a sign, tokens with letters
  (`Calendar.separate_tokens`). `tokens_replaced_in_one_pass` is the main statement.
-/

namespace ScriptLang

namespace Replace

variable {tokens : List (List Char × List Char)} {t : List Char × List Char}
  {p r cs rest : List Char} {c : Char}

/-! ### One pass -/

/-- The first of some tokens that stands at the beginning of a text. -/
def tokenAt? (tokens : List (List Char × List Char)) (cs : List Char) :
    Option (List Char × List Char) :=
  tokens.find? (·.1.isPrefixOf cs)

/-- **One pass.** A text is read from left to right. Where a token stands, the text for it is
written and the token left behind; any other character is copied. `skip` characters of a token
already replaced are left out. -/
def onePass (tokens : List (List Char × List Char)) : Nat → List Char → List Char
  | _, [] => []
  | skip + 1, _ :: cs => onePass tokens skip cs
  | 0, c :: cs =>
    match tokenAt? tokens (c :: cs) with
    | some t => t.2 ++ onePass tokens (t.1.length - 1) cs
    | none => c :: onePass tokens 0 cs

/-- A text with tokens replaced in one pass. -/
def inOnePass (tokens : List (String × String)) (s : String) : String :=
  String.ofList (onePass (tokens.map fun t => (t.1.toList, t.2.toList)) 0 s.toList)

theorem mem_of_tokenAt? (h : tokenAt? tokens cs = some t) : t ∈ tokens :=
  List.mem_of_find?_eq_some h

theorem exists_rest_of_tokenAt? (h : tokenAt? tokens cs = some t) : ∃ rest, t.1 ++ rest = cs := by
  have hbegins := List.find?_some h
  exact List.isPrefixOf_iff_prefix.mp hbegins

theorem tokenAt?_eq_none : tokenAt? tokens cs = none ↔ ∀ t ∈ tokens, ¬ t.1 <+: cs := by
  simp [tokenAt?]

theorem tokenAt?_singleton (hbegins : t.1 <+: cs) : tokenAt? [t] cs = some t := by
  simp [tokenAt?, hbegins]

theorem tokenAt?_append (tokens' : List (List Char × List Char)) :
    tokenAt? (tokens ++ tokens') cs = (tokenAt? tokens cs).or (tokenAt? tokens' cs) :=
  List.find?_append

/-- What is skipped does not matter. -/
theorem onePass_skip (skip : Nat) (cs : List Char) :
    onePass tokens skip cs = onePass tokens 0 (cs.drop skip) := by
  induction cs generalizing skip with
  | nil => cases skip <;> rfl
  | cons c cs ih =>
    cases skip with
    | zero => rfl
    | succ skip => exact ih skip

/-- The text for the token that stands at the beginning is written first. -/
theorem onePass_token (ht : t.1 ≠ []) (h : tokenAt? tokens (t.1 ++ rest) = some t) :
    onePass tokens 0 (t.1 ++ rest) = t.2 ++ onePass tokens 0 rest := by
  obtain ⟨token, text⟩ := t
  obtain ⟨c, cs, rfl⟩ := List.exists_cons_of_ne_nil ht
  rw [List.cons_append] at h ⊢
  rw [onePass, h]
  dsimp only
  rw [onePass_skip]
  exact congrArg (fun rest => text ++ onePass tokens 0 rest) List.drop_left

/-- A character at which no token stands is copied. -/
theorem onePass_copy (h : tokenAt? tokens (c :: cs) = none) :
    onePass tokens 0 (c :: cs) = c :: onePass tokens 0 cs := by
  rw [onePass, h]

theorem onePass_nil (cs : List Char) : onePass [] 0 cs = cs := by
  induction cs with
  | nil => rfl
  | cons c cs ih => rw [onePass_copy rfl, ih]

/-- Replacing one pattern everywhere is a pass with one token. -/
theorem allFrom_eq_onePass (skip : Nat) (cs : List Char) :
    allFrom p r skip cs = onePass [(p, r)] skip cs := by
  fun_induction allFrom p r skip cs with
  | case1 => rfl
  | case2 skip c cs ih => rw [ih, onePass]
  | case3 c cs hhere ih =>
    have htoken : tokenAt? [(p, r)] (c :: cs) = some (p, r) :=
      tokenAt?_singleton (List.isPrefixOf_iff_prefix.mp hhere)
    rw [ih, onePass, htoken]
  | case4 c cs hhere ih =>
    have htoken : tokenAt? [(p, r)] (c :: cs) = none := by
      simpa [tokenAt?_eq_none] using hhere
    rw [ih, onePass_copy htoken]

/-! ### Tokens that stand apart -/

/-- **Separate.** No token shares a character with another one or with a text that is written for a
token. Neither tokens nor texts are empty. -/
structure Separate (tokens : List (List Char × List Char)) : Prop where
  token_ne : ∀ t ∈ tokens, t.1 ≠ []
  text_ne : ∀ t ∈ tokens, t.2 ≠ []
  apart : tokens.Pairwise fun s t => s.1.Disjoint t.1
  foreign : ∀ s ∈ tokens, ∀ t ∈ tokens, s.1.Disjoint t.2

theorem Separate.of_append {tokens' : List (List Char × List Char)}
    (h : Separate (tokens ++ tokens')) : Separate tokens where
  token_ne t ht := h.token_ne t (List.mem_append_left _ ht)
  text_ne t ht := h.text_ne t (List.mem_append_left _ ht)
  apart := (List.pairwise_append.mp h.apart).1
  foreign s hs t ht := h.foreign s (List.mem_append_left _ hs) t (List.mem_append_left _ ht)

/-- A part that shares no character with the tokens is copied. -/
theorem onePass_foreign (hne : ∀ t ∈ tokens, t.1 ≠ []) {before : List Char}
    (hforeign : ∀ t ∈ tokens, t.1.Disjoint before) (rest : List Char) :
    onePass tokens 0 (before ++ rest) = before ++ onePass tokens 0 rest := by
  induction before with
  | nil => rfl
  | cons c before ih =>
    have htoken : tokenAt? tokens (c :: (before ++ rest)) = none := by
      rw [tokenAt?_eq_none]
      intro t ht hbegins
      obtain ⟨d, token, hd⟩ := List.exists_cons_of_ne_nil (hne t ht)
      rw [hd, List.cons_prefix_cons] at hbegins
      -- The token would begin with a character of the part.
      exact hforeign t ht (hd ▸ List.mem_cons_self) (hbegins.1 ▸ List.mem_cons_self)
    rw [List.cons_append, onePass_copy htoken,
      ih fun t ht => (List.disjoint_cons_right.mp (hforeign t ht)).2, List.cons_append]

/-- What shares no character with the texts that are written stands at the beginning of the outcome
of a pass only if it stood there before. Nothing that is written is empty, so what is put in keeps
apart what was apart. -/
theorem isPrefix_of_onePass (hne : ∀ t ∈ tokens, t.2 ≠ []) {q : List Char}
    (hforeign : ∀ t ∈ tokens, q.Disjoint t.2) (h : q <+: onePass tokens 0 cs) : q <+: cs := by
  induction q generalizing cs with
  | nil => exact List.nil_prefix
  | cons d q ih =>
    cases cs with
    | nil => exact absurd h (by simp [onePass])
    | cons c cs =>
      cases htoken : tokenAt? tokens (c :: cs) with
      | some t =>
        -- The outcome begins with a character of the text that was put in.
        have ht := mem_of_tokenAt? htoken
        obtain ⟨e, text, he⟩ := List.exists_cons_of_ne_nil (hne t ht)
        rw [onePass, htoken] at h
        dsimp only at h
        rw [he, List.cons_append, List.cons_prefix_cons] at h
        exact absurd (he ▸ h.1 ▸ List.mem_cons_self) (hforeign t ht List.mem_cons_self)
      | none =>
        rw [onePass_copy htoken, List.cons_prefix_cons] at h
        have hrest := ih (fun t ht => (List.disjoint_cons_left.mp (hforeign t ht)).2) h.2
        exact List.cons_prefix_cons.mpr ⟨h.1, hrest⟩

/-- **One more token.** By induction on the length of the text, which is cut at the tokens. -/
theorem onePass_onePass (h : Separate (tokens ++ [t])) (cs : List Char) :
    onePass [t] 0 (onePass tokens 0 cs) = onePass (tokens ++ [t]) 0 cs := by
  have hlast : t ∈ tokens ++ [t] := List.mem_append_right _ List.mem_cons_self
  have hne := h.token_ne t hlast
  induction hn : cs.length using Nat.strong_induction_on generalizing cs with
  | h n ih =>
    cases htoken : tokenAt? tokens cs with
    | some s =>
      -- The text for the token is not touched by the second pass.
      have hs : s ∈ tokens ++ [t] := List.mem_append_left _ (mem_of_tokenAt? htoken)
      obtain ⟨rest, rfl⟩ := exists_rest_of_tokenAt? htoken
      have hlength := List.length_pos_of_ne_nil (h.token_ne s hs)
      have hboth : tokenAt? (tokens ++ [t]) (s.1 ++ rest) = some s := by
        rw [tokenAt?_append, htoken, Option.some_or]
      have htext : onePass [t] 0 (s.2 ++ onePass tokens 0 rest) =
          s.2 ++ onePass [t] 0 (onePass tokens 0 rest) :=
        onePass_foreign (by simpa using hne) (by simpa using h.foreign t hlast s hs) _
      rw [onePass_token (h.token_ne s hs) htoken, htext,
        onePass_token (h.token_ne s hs) hboth,
        ih rest.length (by rw [← hn, List.length_append]; omega) rest rfl]
    | none =>
      by_cases hhere : t.1 <+: cs
      · -- The last token is not touched by the first pass.
        obtain ⟨rest, rfl⟩ := hhere
        have hlength := List.length_pos_of_ne_nil hne
        have hlone (cs : List Char) : tokenAt? [t] (t.1 ++ cs) = some t :=
          tokenAt?_singleton (List.prefix_append t.1 cs)
        have hboth : tokenAt? (tokens ++ [t]) (t.1 ++ rest) = some t := by
          rw [tokenAt?_append, htoken, Option.none_or, hlone]
        have hfirst : onePass tokens 0 (t.1 ++ rest) = t.1 ++ onePass tokens 0 rest :=
          onePass_foreign h.of_append.token_ne
            (fun s hs => (List.pairwise_append.mp h.apart).2.2 s hs t List.mem_cons_self) rest
        rw [hfirst, onePass_token hne (hlone _), onePass_token hne hboth,
          ih rest.length (by rw [← hn, List.length_append]; omega) rest rfl]
      · cases cs with
        | nil => rfl
        | cons c cs =>
          have hlone : tokenAt? [t] (c :: cs) = none := by simpa [tokenAt?_eq_none] using hhere
          have hboth : tokenAt? (tokens ++ [t]) (c :: cs) = none := by
            rw [tokenAt?_append, htoken, Option.none_or, hlone]
          have hafter : tokenAt? [t] (onePass tokens 0 (c :: cs)) = none := by
            have habsent : ¬ t.1 <+: onePass tokens 0 (c :: cs) := fun hbegins =>
              hhere <| isPrefix_of_onePass h.of_append.text_ne
                (fun s hs => h.foreign t hlast s (List.mem_append_left _ hs)) hbegins
            simpa [tokenAt?_eq_none] using habsent
          rw [onePass_copy htoken] at hafter ⊢
          rw [onePass_copy hafter, onePass_copy hboth,
            ih cs.length (by rw [← hn, List.length_cons]; omega) cs rfl]

/-- **Tokens in turn.** Replacing separate tokens one after the other is one pass. -/
theorem foldl_onePass {done : List (List Char × List Char)} (h : Separate (done ++ tokens)) :
    tokens.foldl (fun out t => onePass [t] 0 out) (onePass done 0 cs) =
      onePass (done ++ tokens) 0 cs := by
  induction tokens generalizing done with
  | nil => rw [List.append_nil, List.foldl_nil]
  | cons t tokens ih =>
    have hassoc : done ++ t :: tokens = (done ++ [t]) ++ tokens := by simp
    rw [hassoc] at h ⊢
    rw [List.foldl_cons, onePass_onePass h.of_append, ih h]

theorem toList_all {token : String} (hne : token.toList ≠ []) (text s : String) :
    (all token text s).toList = onePass [(token.toList, text.toList)] 0 s.toList := by
  have hempty : token.isEmpty = false := by simpa using hne
  rw [all, hempty, if_neg Bool.false_ne_true, String.toList_ofList, allFrom_eq_onePass]

theorem toList_foldl_all {tokens : List (String × String)} (hne : ∀ t ∈ tokens, t.1.toList ≠ [])
    (s : String) :
    (tokens.foldl (fun out t => all t.1 t.2 out) s).toList =
      (tokens.map fun t => (t.1.toList, t.2.toList)).foldl (fun out t => onePass [t] 0 out)
        s.toList := by
  induction tokens generalizing s with
  | nil => rfl
  | cons t tokens ih =>
    rw [List.foldl_cons, List.map_cons, List.foldl_cons,
      ih fun t' ht' => hne t' (List.mem_cons_of_mem _ ht'), toList_all (hne t List.mem_cons_self)]

/-- Replacing separate tokens in a text one after the other is one pass. -/
theorem foldl_all_eq_inOnePass {tokens : List (String × String)}
    (h : Separate (tokens.map fun t => (t.1.toList, t.2.toList))) (s : String) :
    tokens.foldl (fun out t => all t.1 t.2 out) s = inOnePass tokens s := by
  have hne : ∀ t ∈ tokens, t.1.toList ≠ [] := fun t ht =>
    h.token_ne _ (List.mem_map_of_mem ht)
  have hpass := @foldl_onePass _ s.toList [] h
  rw [onePass_nil, ← toList_foldl_all hne, List.nil_append] at hpass
  rw [inOnePass, ← hpass, String.ofList_toList]

end Replace

/-! ### Dates -/

namespace Calendar

/-- The characters that numbers are written with. -/
def IsFigure (c : Char) : Prop := c.isDigit = true ∨ c = '-'

/-- **Field.** A text as the fields of a date are written. -/
structure IsField (s : String) : Prop where
  ne : s.toList ≠ []
  figures : ∀ c ∈ s.toList, IsFigure c

theorem isField_toString (i : Int) : IsField (toString i) where
  ne := by
    rw [JsonReader.toList_toString]
    exact List.append_ne_nil_of_right_ne_nil _ Nat.toDigits_ne_nil
  figures c hc := by
    rw [JsonReader.toList_toString, List.mem_append] at hc
    rcases hc with hc | hc
    · right
      split at hc
      · exact List.mem_singleton.mp hc
      · cases hc
    · exact .inl (Nat.isDigit_of_mem_toDigits (by decide) (by decide) hc)

theorem isField_padded (width n : Nat) : IsField (padded width n) := by
  have hchars : (padded width n).toList =
      List.replicate (width - (toString n).length) '0' ++ Nat.toDigits 10 n := by
    simp [padded, toString, Nat.toList_repr]
  constructor
  case ne =>
    rw [hchars]
    exact List.append_ne_nil_of_right_ne_nil _ Nat.toDigits_ne_nil
  case figures =>
    intro c hc
    rw [hchars, List.mem_append] at hc
    left
    rcases hc with hc | hc
    · rw [List.eq_of_mem_replicate hc]
      rfl
    · exact Nat.isDigit_of_mem_toDigits (by decide) (by decide) hc

/-- **Letters and figures.** The tokens of a pattern stand apart from each other and from all
fields. -/
theorem separate_tokens (d : Date) (c : Clock) :
    Replace.Separate ((tokens d c).map fun t => (t.1.toList, t.2.toList)) := by
  -- Fields are made of figures, tokens of letters.
  have hfield : ∀ t ∈ tokens d c, IsField t.2 := by
    simp only [tokens, List.forall_mem_cons]
    exact ⟨isField_toString _, isField_padded _ _, isField_padded _ _, isField_padded _ _,
      isField_padded _ _, isField_padded _ _, List.forall_mem_nil _⟩
  have hletter : ∀ t ∈ tokens d c, ∀ ch ∈ t.1.toList, ¬ IsFigure ch := by
    simp [tokens, IsFigure]
  constructor
  case token_ne => simp [tokens]
  case text_ne =>
    rw [List.forall_mem_map]
    exact fun t ht => (hfield t ht).ne
  case apart => simp [tokens, List.Disjoint]
  case foreign =>
    rw [List.forall_mem_map]
    intro s hs
    rw [List.forall_mem_map]
    exact fun t ht ch hch hch' => hletter s hs ch hch ((hfield t ht).figures ch hch')

end Calendar

/-- **Tokens are replaced in one pass.** To fill a pattern with the fields of a date and a time of
day is to read it once from left to right, to write a field where its token stands, and to copy
every other character. So nothing that is written is taken for a token or becomes a part of one. -/
theorem tokens_replaced_in_one_pass (d : Date) (c : Clock) (pattern : String) :
    Calendar.render d c pattern =
      Replace.inOnePass
        [("YYYY", toString d.year), ("MM", padded 2 d.month), ("DD", padded 2 d.day),
          ("hh", padded 2 c.hour), ("mm", padded 2 c.minute), ("ss", padded 2 c.second)]
        pattern :=
  Replace.foldl_all_eq_inOnePass (Calendar.separate_tokens d c) pattern

end ScriptLang
