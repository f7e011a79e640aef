import ScriptLang.Proofs.Spans

/-!
# How patterns and expressions are read

The judgement `Parser.Spans` for the parsers of patterns, blocks, functions and expressions. A rule
of the grammar that is entered after its first token speaks of that token as `b.token s`, where `s`
is a place before the one at hand, and of its result as a construct that begins at `s`.

`Grammar.Lays` says of the two parsers of a grammar that they read what `Construct.Occupies`
describes.
-/

namespace ScriptLang.Grammar

open ScriptLang.Parser Construct

variable {b : Input} {i s : Nat} {bound : Nat}

/-- **Lays.** The two parsers of the grammar read expressions and statements that are made of the
tokens that they take. -/
structure Lays (b : Input) (g : Grammar) : Prop where
  expression : ∀ i, Spans b i g.expression fun j e => Occupies b.place (.expr e) i j
  statement : ∀ i, Spans b i g.statement fun j s => Occupies b.place (.stmt s) i j

/-! ### Patterns -/

/-- The number of names and commas in a list of names. -/
theorem spans_names (clause : Clause) :
    Spans b i (names clause bound) fun j ns => ns ≠ [] ∧ j = i + (2 * ns.length - 1) := by
  induction bound generalizing i with
  | zero => exact spans_exhausted
  | succ bound ih =>
    refine spans_after (spans_expectName clause) (spans_eat ?_ (spans_pure ?_) (by decide))
    · refine spans_bind ih fun j ns _ hns => spans_pure ⟨List.cons_ne_nil _ _, ?_⟩
      have := List.length_pos_iff.mpr hns.1
      rw [hns.2, List.length_cons]
      omega
    · exact ⟨List.cons_ne_nil _ _, rfl⟩

theorem spans_namesUpTo (close : TokenKind) (clause : Clause) :
    Spans b i (namesUpTo bound close clause) fun j ns => j = i + (2 * ns.length - 1) :=
  spans_look (spans_ite (fun _ => spans_pure rfl) fun _ =>
    (spans_names clause).mono fun _ _ _ h => h.2)

theorem spans_destructure :
    Spans b i (destructure bound) fun j p => j = i + p.width := by
  -- Names between brackets, or between braces.
  have hnames (close : TokenKind) (hk : close ≠ .eof) (clause clause' : Clause)
      (f : List String → Destructure) (hf : ∀ ns, (f ns).names = ns) :
      Spans b (i + 1) (do
        let found ← namesUpTo bound close clause
        let _ ← expect close clause'
        return f found) fun j p => j = i + p.width := by
    refine spans_bind (spans_namesUpTo close clause) fun j ns _ hj => ?_
    refine spans_after (spans_expect hk clause') (spans_pure ?_)
    rw [hj, Destructure.width, hf]
    omega
  refine spans_current (spans_ite (fun hk => ?_) fun _ =>
    spans_ite (fun hk => ?_) fun _ => spans_fail (Nat.le_refl i))
  · exact spans_advance (by simp [hk]) (hnames _ (by decide) _ _ .array fun _ => rfl)
  · exact spans_advance (by simp [hk]) (hnames _ (by decide) _ _ .object fun _ => rfl)

theorem spans_patterns {start : Nat} :
    (∀ {i close depth}, Spans b i (patternWith start close bound depth) fun j _ => i + 1 ≤ j) ∧
    ∀ {i depth}, Spans b i (patterns start bound depth) fun j _ => i + 1 ≤ j := by
  -- Patterns and lists of them call each other, with one level less each time.
  induction bound with
  | zero => exact ⟨spans_exhausted, spans_exhausted⟩
  | succ bound ih =>
    obtain ⟨hpattern, hpatterns⟩ := ih
    refine ⟨fun {i close depth} => ?_, fun {i depth} => ?_⟩
    · refine spans_enter (spans_current ?_)
      split
      case h_1 hk =>
        refine spans_advance (by simp [hk]) ?_
        have hclose {j : Nat} (hj : i + 1 ≤ j) (ps : List Pattern) :
            Spans b j (do let _ ← expect .rightBracket close; return Pattern.array ps)
              fun j _ => i + 1 ≤ j :=
          spans_after (spans_expect (by decide) close) (spans_pure (by omega))
        refine spans_look (spans_ite (fun _ => spans_with (hclose (Nat.le_refl _) [])) fun _ => ?_)
        exact spans_bind hpatterns fun j ps _ hj => hclose (by omega) ps
      case h_2 hk =>
        refine spans_advance (by simp [hk]) ?_
        split
        · exact spans_pure (Nat.le_refl _)
        · exact spans_fail (Nat.le_succ i)
      case h_7 => exact spans_fail (Nat.le_refl i)
      case h_8 => exact spans_fail (Nat.le_refl i)
      all_goals exact spans_advance (by simp [*]) (spans_pure (Nat.le_refl _))
    · refine spans_bind hpattern fun j p _ hj => ?_
      refine spans_eat ?_ (spans_pure (by omega)) (by decide)
      exact spans_bind hpatterns fun k ps _ hk => spans_pure (by omega)

theorem spans_pattern : Spans b i (pattern bound) fun j _ => i + 1 ≤ j :=
  spans_look spans_patterns.1

variable {g : Grammar} (hg : g.Lays b)
include hg

/-! ### Blocks and arguments -/

theorem spans_statements :
    Spans b i (statements g bound) fun j ss => Occupies b.place (.stmts ss) i j := by
  induction bound generalizing i with
  | zero => exact spans_exhausted
  | succ bound ih =>
    refine spans_look (spans_ite (fun _ => spans_pure .noStmts) fun _ => ?_)
    refine spans_bind (hg.statement i) fun j s _ hs => ?_
    exact spans_bind ih fun k ss _ hss => spans_pure (.stmts hs hss)

theorem spans_block : Spans b i (block g) fun j ss => Occupies b.place (.stmts ss) i j :=
  spans_statements hg

theorem spans_element :
    Spans b i (element g) fun j e => Occupies b.place (.expr e.value) (i + e.lead) j := by
  refine spans_eat ?_ ?_ (by decide)
  · exact spans_bind (hg.expression (i + 1)) fun j e _ he => spans_pure he
  · exact spans_bind (hg.expression i) fun j e _ he => spans_pure he

theorem spans_elements :
    Spans b i (elements g bound) fun j es => Occupies b.place (.elements es) i j := by
  induction bound generalizing i with
  | zero => exact spans_exhausted
  | succ bound ih =>
    refine spans_bind (spans_element hg) fun j e _ he => ?_
    refine spans_eat ?_ (spans_pure (.element he)) (by decide)
    exact spans_bind ih fun k es _ hes => spans_pure (.elements he hes)

theorem spans_arguments :
    Spans b i (arguments g) fun j es => Occupies b.place (.elements es) i j :=
  spans_look (spans_ite (fun _ => spans_pure .noElements) fun _ => spans_elements hg)

/-! ### Functions -/

/-- The number of tokens with which a parameter list of a style ends by itself: an arrow is taken
with the last parameter, a parenthesis is not. -/
def ParamStyle.close : ParamStyle → Nat
  | .parenthesized => 0
  | .arrow => 1

omit hg in
theorem spans_restParam (style : ParamStyle) :
    Spans b i (restParam style) fun j _ => i + 1 ≤ j ∧ j ≤ i + 1 + style.close := by
  refine spans_after (spans_expect (by decide) _) (spans_look ?_)
  refine spans_ite (fun _ => spans_fail (Nat.le_succ i)) fun _ => ?_
  cases style with
  | parenthesized => exact spans_pure ⟨Nat.le_refl _, Nat.le_refl _⟩
  | arrow =>
    refine spans_bind spans_eatArrow fun j ate _ hj => spans_pure ?_
    cases ate <;> exact ⟨by simp_all, by simp_all [ParamStyle.close]⟩

/-- What is known of the default of the parameter before place `i`. -/
inductive Default (b : Input) (i : Nat) : Bool → Nat → Option Expr → Prop
  | none : Default b i false i none
  | some {defaulted : Bool} {e : Expr} {j : Nat} (value : Occupies b.place (.expr e) (i + 1) j) :
    Default b i defaulted j (some e)

theorem spans_paramDefault (defaulted : Bool) :
    Spans b (i + 1) (paramDefault g defaulted (b.token i)) (Default b (i + 1) defaulted) := by
  refine spans_eat ?_ ?_ (by decide)
  · exact spans_bind (hg.expression (i + 1 + 1)) fun j e _ he => spans_pure (.some he)
  · refine spans_ite (fun _ => spans_fail (Nat.le_succ i)) fun hd => spans_pure ?_
    obtain rfl : defaulted = false := by simpa using hd
    exact .none

omit hg in
/-- One more parameter, with the separator behind it, before others. -/
theorem Default.occupies {defaulted : Bool} {name : String} {value : Option Expr} {ps : List Param}
    {j k l : Nat} (h : Default b (i + 1) defaulted j value) (gap : j ≤ k ∧ k ≤ j + 1)
    (others : Occupies b.place (.params (defaulted || value.isSome) ps) k l) :
    Occupies b.place (.params defaulted (.mk name value :: ps)) i l := by
  cases h with
  | none => exact .param gap others
  | some value => exact .defaultParam value gap (by simpa using others)

omit hg in
theorem spans_moreParams (style : ParamStyle) :
    Spans b i (moreParams style) fun j _ => i ≤ j ∧ j ≤ i + 1 := by
  cases style with
  | parenthesized =>
    refine Spans.mono (spans_eatIf_any fun c hc => ?_) fun j ate _ hj => ?_
    · have h : c.current.kind = .comma := by simpa [Cursor.check] using hc
      exact atEnd_of_current rfl (by simp [h])
    · cases ate <;> simp_all
  | arrow =>
    refine spans_eatOperator (spans_pure ⟨Nat.le_succ i, Nat.le_refl _⟩) ?_ "->"
    exact spans_look (spans_ite (fun _ => spans_failHere) fun _ =>
      spans_pure ⟨Nat.le_refl i, Nat.le_succ i⟩)

theorem spans_paramsFrom (style : ParamStyle) (defaulted : Bool) :
    Spans b i (paramsFrom g style bound defaulted) fun j found =>
      ∃ k, Occupies b.place (.params defaulted found.params) i k ∧ k ≤ j ∧
        j ≤ k + 2 + style.close := by
  induction bound generalizing i defaulted with
  | zero => exact spans_exhausted
  | succ bound ih =>
    -- A rest parameter takes its dots and is the last one; a name may be followed by others.
    refine spans_eat ?_ ?_ (by decide)
    · refine spans_bind (spans_restParam style) fun j name _ hj => spans_pure ?_
      exact ⟨i, .noParams, by omega, by omega⟩
    · refine spans_after (spans_expectName _) ?_
      refine spans_bind (spans_paramDefault hg defaulted) fun j value _ hvalue => ?_
      refine spans_bind (spans_moreParams style) fun k more _ hk => ?_
      refine spans_ite (fun _ => ?_) fun _ => ?_
      · refine spans_bind (ih _) fun l others _ ho => spans_pure ?_
        obtain ⟨m, hm, hml⟩ := ho
        exact ⟨m, hvalue.occupies hk hm, hml⟩
      · exact spans_pure ⟨k, hvalue.occupies hk .noParams, Nat.le_refl k, by omega⟩

theorem spans_params (style : ParamStyle) :
    Spans b i (params g style) fun j found =>
      ∃ k, Occupies b.place (.params false found.params) i k ∧ k ≤ j ∧ j ≤ k + 3 := by
  have hend (found : Params) {j k : Nat} (hk : Occupies b.place (.params false found.params) i k)
      (hj : k ≤ j ∧ j ≤ k + 2 + style.close) :
      Spans b j (do
        if style = .parenthesized then
          if ← look fun c => found.rest.isSome && !c.check .rightParen then failHere .afterRest
          else
            let _ ← expect .rightParen
              ⟨"SYN026", "Expected a closing parenthesis for function parameters."⟩
            return found
        else return found) fun j found =>
          ∃ k, Occupies b.place (.params false found.params) i k ∧ k ≤ j ∧ j ≤ k + 3 := by
    cases style with
    | parenthesized =>
      refine spans_look (spans_ite (fun _ => spans_failHere) fun _ => ?_)
      refine spans_after (spans_expect (by decide) _) (spans_pure ⟨k, hk, by omega, ?_⟩)
      have hclose : ParamStyle.parenthesized.close = 0 := rfl
      omega
    | arrow => exact spans_pure ⟨k, hk, hj⟩
  -- The arrow of a list without parameters has been taken by the test for it.
  have hopen (closed : Bool) {j : Nat} (hj : i ≤ j ∧ j ≤ i + 1 ∧ (closed = false → j = i)) :
      Spans b j (do
        let found ← if closed then pure ⟨[], none⟩ else paramsFrom g style g.bound false
        if style = .parenthesized then
          if ← look fun c => found.rest.isSome && !c.check .rightParen then failHere .afterRest
          else
            let _ ← expect .rightParen
              ⟨"SYN026", "Expected a closing parenthesis for function parameters."⟩
            return found
        else return found) fun j found =>
          ∃ k, Occupies b.place (.params false found.params) i k ∧ k ≤ j ∧ j ≤ k + 3 := by
    refine spans_ite (fun _ => spans_with (hend _ .noParams (by omega))) fun hclosed => ?_
    obtain rfl : j = i := hj.2.2 (by simpa using hclosed)
    refine spans_bind (spans_paramsFrom hg style false) fun l found _ hfound => ?_
    obtain ⟨k, hk, hl⟩ := hfound
    exact hend found hk hl
  cases style with
  | parenthesized => exact spans_look (hopen _ ⟨Nat.le_refl i, Nat.le_succ i, fun _ => rfl⟩)
  | arrow =>
    refine spans_bind spans_eatArrow fun j closed hij hj => hopen closed ⟨hij, ?_, ?_⟩
    · cases closed <;> simp_all
    · rintro rfl
      exact hj

theorem spans_functionBody :
    Spans b i (functionBody g) fun j body =>
      ∃ k, Occupies b.place (.stmts body) i k ∧ j = k + 1 := by
  refine spans_bind (spans_block hg) fun k body _ hbody => ?_
  exact spans_after (spans_expectText (by decide) _ _) (spans_pure ⟨k, hbody, rfl⟩)

theorem spans_anonymous :
    Spans b (s + 1) (anonymous g (b.token s)) fun j e => Occupies b.place (.expr e) s j := by
  -- Parameters and a body come after either way to begin.
  have hrest (style : ParamStyle) {i : Nat} (hi : s + 1 ≤ i ∧ i ≤ s + 3) : Spans b i (do
      let found ← params g style
      let body ← functionBody g
      let loc ← locate (b.token s)
      return .function loc (.mk none found.params found.rest body loc))
      fun j e => Occupies b.place (.expr e) s j := by
    refine spans_bind (spans_params hg style) fun l found _ hfound => ?_
    obtain ⟨k, hk, hl⟩ := hfound
    refine spans_bind (spans_functionBody hg) fun n body _ hbody => spans_locate (spans_pure ?_)
    obtain ⟨m, hm, rfl⟩ := hbody
    exact .lambda rfl (.function hi hk hl hm)
  refine spans_ite (fun _ => spans_with (hrest .arrow (by omega))) fun _ => ?_
  exact spans_after (spans_expect (by decide) _) (spans_with (hrest .parenthesized (by omega)))

omit hg in
/-- A callee that names a function, with its arguments in parentheses behind it. -/
theorem spans_callee (member : Clause) :
    Spans b (s + 1) (callee (b.token s) member) fun j e =>
      e.isReference = true ∧ Occupies b.place (.callee e) s j := by
  refine spans_locate (spans_eatOperator ?_ (spans_pure ⟨rfl, .reference _⟩) ".")
  exact spans_after (spans_expect (by decide) _) (spans_pure ⟨rfl, .member _ _⟩)

/-- Arguments and their closing parenthesis. -/
theorem spans_argumentsTo {β : Type} {f : List Element → β} {q : Nat → β → Prop} (clause : Clause)
    (hf : ∀ j es, Occupies b.place (.elements es) i j → q (j + 1) (f es)) :
    Spans b i (do
      let args ← arguments g
      let _ ← expect .rightParen clause
      return f args) q := by
  refine spans_bind (spans_arguments hg) fun j es _ hes => ?_
  exact spans_after (spans_expect (by decide) _) (spans_pure (hf j es hes))

/-- A callee that begins at a place, and its arguments. -/
def CalleeOccupies (b : Input) (s : Nat) (j : Nat) (found : Expr × List Element) : Prop :=
  found.1.isReference = true ∧ ∃ k l, Occupies b.place (.callee found.1) s k ∧
    Occupies b.place (.elements found.2) (k + 1) l ∧ j = l + 1

theorem spans_callParts : Spans b i (callParts g) (CalleeOccupies b i) := by
  refine spans_after (spans_expect (by decide) _) ?_
  refine spans_bind (spans_callee _) fun k target _ htarget => ?_
  refine spans_after (spans_expect (by decide) _) ?_
  exact spans_argumentsTo hg _ fun l es hes => ⟨htarget.1, k, l, htarget.2, hes, rfl⟩

/-! ### Containers and templates -/

theorem spans_moreItems :
    Spans b i (moreItems g bound) fun j es =>
      es = [] ∧ j = i ∨ Occupies b.place (.elements es) (i + 1) j := by
  induction bound generalizing i with
  | zero => exact spans_exhausted
  | succ bound ih =>
    refine spans_eat ?_ (spans_pure (.inl ⟨rfl, rfl⟩)) (by decide)
    refine spans_look (spans_ite (fun _ => spans_pure (.inr .noElements)) fun _ => ?_)
    refine spans_bind (spans_element hg) fun j e _ he => ?_
    refine spans_bind ih fun k es _ hes => spans_pure (.inr ?_)
    obtain ⟨rfl, rfl⟩ | hes := hes
    · exact .element he
    · exact .elements he hes

theorem spans_arrayLiteral :
    Spans b (s + 1) (arrayLiteral g (b.token s)) fun j e => Occupies b.place (.expr e) s j := by
  have hclose {j : Nat} (items : List Element) (h : Occupies b.place (.elements items) (s + 1) j) :
      Spans b j (do
        let _ ← expect .rightBracket
          ⟨"SYN012", "Expected a closing square bracket to end an array literal."⟩
        return .array (← locate (b.token s)) items) fun j e => Occupies b.place (.expr e) s j :=
    spans_after (spans_expect (by decide) _) (spans_locate (spans_pure (.array h)))
  refine spans_look (spans_ite (fun _ => spans_with (hclose [] .noElements)) fun _ => ?_)
  refine spans_bind (spans_element hg) fun j e _ he => ?_
  refine spans_bind (spans_moreItems hg) fun k es _ hes => spans_with (hclose (e :: es) ?_)
  obtain ⟨rfl, rfl⟩ | hes := hes
  · exact .element he
  · exact .elements he hes

theorem spans_entry (first : Bool) :
    Spans b i (entry g first) fun j e => Occupies b.place (.expr e.value) (i + e.lead) j := by
  refine spans_eat ?_ ?_ (by decide)
  · exact spans_bind (hg.expression (i + 1)) fun j e _ he => spans_pure he
  · refine spans_after (spans_expect (by decide) _) (spans_after (spans_expect (by decide) _) ?_)
    exact spans_bind (hg.expression (i + 2)) fun j e _ he => spans_pure he

theorem spans_moreEntries :
    Spans b i (moreEntries g bound) fun j es =>
      es = [] ∧ j = i ∨ Occupies b.place (.entries es) (i + 1) j := by
  induction bound generalizing i with
  | zero => exact spans_exhausted
  | succ bound ih =>
    refine spans_eat ?_ (spans_pure (.inl ⟨rfl, rfl⟩)) (by decide)
    refine spans_look (spans_ite (fun _ => spans_pure (.inr .noEntries)) fun _ => ?_)
    refine spans_bind (spans_entry hg false) fun j e _ he => ?_
    refine spans_bind ih fun k es _ hes => spans_pure (.inr ?_)
    obtain ⟨rfl, rfl⟩ | hes := hes
    · exact .entry he
    · exact .entries he hes

theorem spans_objectLiteral :
    Spans b (s + 1) (objectLiteral g (b.token s)) fun j e => Occupies b.place (.expr e) s j := by
  have hclose {j : Nat} (items : List Entry) (h : Occupies b.place (.entries items) (s + 1) j) :
      Spans b j (do
        let _ ← expect .rightBrace
          ⟨"SYN018", "Expected a closing curly brace to end an object literal."⟩
        return .object (← locate (b.token s)) items) fun j e => Occupies b.place (.expr e) s j :=
    spans_after (spans_expect (by decide) _) (spans_locate (spans_pure (.object h)))
  refine spans_look (spans_ite (fun _ => spans_with (hclose [] .noEntries)) fun _ => ?_)
  refine spans_bind (spans_entry hg true) fun j e _ he => ?_
  refine spans_bind (spans_moreEntries hg) fun k es _ hes => spans_with (hclose (e :: es) ?_)
  obtain ⟨rfl, rfl⟩ | hes := hes
  · exact .entry he
  · exact .entries he hes

theorem spans_parts :
    Spans b i (parts g bound) fun j ps => Occupies b.place (.parts ps) i j := by
  induction bound generalizing i with
  | zero => exact spans_exhausted
  | succ bound ih =>
    refine spans_current ?_
    split
    case h_1 => exact spans_pure .noParts
    case h_2 => exact spans_pure .noParts
    case h_3 hk =>
      refine spans_advance (by simp [hk]) (spans_bind ih fun j ps _ hps => spans_pure ?_)
      split
      · exact .emptyText hps
      · exact .text hps
    case h_4 hk =>
      refine spans_advance (by simp [hk]) (spans_bind (hg.expression (i + 1)) fun j e _ he => ?_)
      refine spans_after (spans_expect (by decide) _) ?_
      exact spans_bind ih fun k ps _ hps => spans_pure (.interpolation he hps)
    case h_5 => exact spans_fail (Nat.le_refl i)

theorem spans_templateLiteral :
    Spans b (s + 1) (templateLiteral g (b.token s)) fun j e => Occupies b.place (.expr e) s j := by
  refine spans_bind (spans_parts hg) fun j ps _ hps => ?_
  exact spans_after (spans_expect (by decide) _) (spans_locate (spans_pure (.template hps)))

/-! ### Primaries and their members -/

theorem spans_wordAtom (hk : (b.token i).kind ≠ .eof) :
    Spans b i (wordAtom g (b.token i)) fun j e => Occupies b.place (.expr e) i j := by
  refine spans_ite (fun _ => spans_advance hk (spans_anonymous hg)) fun _ =>
    spans_ite (fun _ => spans_advance hk ?_) fun _ => spans_fail (Nat.le_refl i)
  refine spans_bind (spans_callParts hg) fun j found _ hfound => spans_locate (spans_pure ?_)
  obtain ⟨hnamed, k, l, hcallee, hargs, rfl⟩ := hfound
  exact .call hnamed hcallee hargs

theorem spans_atom :
    Spans b i (atom g) fun j e => Occupies b.place (.expr e) i j := by
  -- Whatever begins an atom is taken; what it is decides how the atom goes on.
  refine spans_current ?_
  split
  case h_1 hk => exact spans_advance (by simp [hk]) (spans_locate (spans_pure (.ident _)))
  case h_2 hk =>
    refine spans_advance (by simp [hk]) ?_
    split
    · exact spans_locate (spans_pure (.literal _))
    · exact spans_fail (Nat.le_succ i)
  case h_3 hk => exact spans_advance (by simp [hk]) (spans_locate (spans_pure (.literal _)))
  case h_4 hk => exact spans_advance (by simp [hk]) (spans_locate (spans_pure (.literal _)))
  case h_5 hk => exact spans_advance (by simp [hk]) (spans_locate (spans_pure (.literal _)))
  case h_6 hk => exact spans_advance (by simp [hk]) (spans_templateLiteral hg)
  case h_7 hk => exact spans_advance (by simp [hk]) (spans_arrayLiteral hg)
  case h_8 hk => exact spans_advance (by simp [hk]) (spans_objectLiteral hg)
  case h_9 hk =>
    refine spans_advance (by simp [hk]) (spans_bind (hg.expression (i + 1)) fun j e _ he => ?_)
    exact spans_after (spans_expect (by decide) _) (spans_pure (.group he))
  case h_10 hk => exact spans_wordAtom hg (by simp [hk])
  case h_11 => exact spans_fail (Nat.le_refl i)
  case h_12 => exact spans_fail (Nat.le_refl i)

/-- A key and its closing bracket, behind the base and the opening bracket. -/
theorem spans_bracketMember {base : Expr} (clause : Clause) :
    Spans b (i + 1) (bracketMember g (b.token i) base clause) fun j e =>
      ∃ key k, e = .index (b.place i) base key false ∧ Occupies b.place (.expr key) (i + 1) k ∧
        j = k + 1 := by
  refine spans_bind (hg.expression (i + 1)) fun k key _ hkey => ?_
  exact spans_after (spans_expect (by decide) _)
    (spans_locate (spans_pure ⟨key, k, rfl, hkey, rfl⟩))

theorem spans_dotMember {base : Expr} (hbase : Occupies b.place (.expr base) s i) :
    Spans b (i + 1) (dotMember g (b.token i) base) fun j e => Occupies b.place (.expr e) s j := by
  -- A bracket or parenthesis that is eaten was seen, so it is not the end of the input.
  have hat {safe : Bool} {kind : TokenKind} (hk : kind ≠ .eof) (c : Cursor)
      (hc : (safe && c.check kind) = true) : c.atEnd = false := by
    have hkind : c.current.kind = kind := by simp_all [Cursor.check]
    exact atEnd_of_current rfl (hkind ▸ hk)
  refine spans_eatIf (hat (by decide)) (fun _ => ?_) ?_
  · refine spans_bind (hg.expression (i + 2)) fun j key _ hkey => ?_
    exact spans_after (spans_expect (by decide) _)
      (spans_locate (spans_pure (.safeIndex hbase hkey)))
  refine spans_eatIf (hat (by decide)) (fun _ => ?_) ?_
  · refine spans_bind (spans_arguments hg) fun j es _ hes => ?_
    exact spans_after (spans_expect (by decide) _)
      (spans_locate (spans_pure (.safeCall hbase hes)))
  · exact spans_after (spans_expect (by decide) _)
      (spans_locate (spans_pure (.property hbase)))

theorem spans_members {base : Expr} (hbase : Occupies b.place (.expr base) s i) :
    Spans b i (members g bound base) fun j e => Occupies b.place (.expr e) s j := by
  induction bound generalizing i base with
  | zero => exact spans_exhausted
  | succ bound ih =>
    refine spans_current (spans_ite (fun hdot => ?_) fun _ =>
      spans_ite (fun hk => ?_) fun _ => spans_pure hbase)
    · have hk : (b.token i).kind ≠ .eof := by
        obtain hdot | hdot : (b.token i).isOperator "." = true ∨
            (b.token i).isOperator "?." = true := by simpa using hdot
        · exact kind_of_isOperator hdot
        · exact kind_of_isOperator hdot
      refine spans_advance hk (spans_bind (spans_dotMember hg hbase) fun j next _ hnext => ?_)
      exact ih hnext
    · refine spans_advance (by simp [hk])
        (spans_bind (spans_bracketMember hg _) fun j next _ hnext => ?_)
      obtain ⟨key, k, rfl, hkey, rfl⟩ := hnext
      exact ih (.index hbase hkey)

theorem spans_primary : Spans b i (primary g) fun j e => Occupies b.place (.expr e) i j :=
  spans_bind (spans_atom hg) fun _ _ _ hbase => spans_members hg hbase

/-! ### Operators and pipes -/

theorem spans_operation :
    Spans b (i + 1) (operation g (b.token i)) fun j e => Occupies b.place (.expr e) i j := by
  refine spans_ite (fun _ => ?_) fun _ => ?_
  · exact spans_bind (hg.expression (i + 1)) fun j e _ he => spans_locate (spans_pure (.unary he))
  split
  · exact spans_fail (Nat.le_succ i)
  refine spans_bind (hg.expression (i + 1)) fun j left hij hleft => ?_
  refine spans_look (spans_ite (fun _ => ?_) fun _ => ?_)
  -- With one operand only, the operator has to be a minus.
  · exact spans_ite (fun _ => spans_locate (spans_pure (.unary hleft))) fun _ =>
      spans_fail (by omega)
  · exact spans_bind (hg.expression j) fun k right _ hright =>
      spans_locate (spans_pure (.binary hleft hright))

theorem spans_operand : Spans b i (operand g) fun j e => Occupies b.place (.expr e) i j :=
  spans_current (spans_ite
    (fun hop => spans_advance (kind_of_isOperation hop) (spans_operation hg))
    fun _ => spans_primary hg)

theorem spans_choiceCallee :
    Spans b (s + 1) (choiceCallee g (b.token s)) fun j e => Occupies b.place (.callee e) s j := by
  refine spans_bind (hg.expression (s + 1)) fun j cond _ hcond => ?_
  refine spans_after (spans_expectWord _ _) ?_
  refine spans_bind (hg.expression (j + 1)) fun k yes _ hyes => ?_
  refine spans_after (spans_expectWord _ _) ?_
  exact spans_bind (hg.expression (k + 1)) fun l no _ hno =>
    spans_locate (spans_pure (.choice hcond hyes hno))

/-- A pipe to a callee that begins at the place at hand, the pipe being the token before it. -/
theorem spans_pipeCallee {value : Expr} (hvalue : Occupies b.place (.expr value) s i) :
    Spans b (i + 1) (pipeCallee g) fun j found =>
      Occupies b.place (.expr (.pipe (b.place i) value found.1 found.2)) s j := by
  refine spans_current (spans_ite (fun hif => ?_) fun _ => ?_)
  · refine spans_advance (kind_of_isKeyword hif) ?_
    exact spans_bind (spans_choiceCallee hg) fun j e _ he => spans_pure (.pipe hvalue he)
  · refine spans_after (spans_expect (by decide) _) ?_
    refine spans_bind (spans_callee _) fun k target _ htarget => ?_
    refine spans_eat ?_ (spans_pure (.pipe hvalue htarget.2)) (by decide)
    exact spans_argumentsTo hg _ fun l es hes => .pipeCall htarget.1 hvalue htarget.2 hes

theorem spans_pipes {value : Expr} (hvalue : Occupies b.place (.expr value) s i) :
    Spans b i (pipes g bound value) fun j e => Occupies b.place (.expr e) s j := by
  induction bound generalizing i value with
  | zero => exact spans_exhausted
  | succ bound ih =>
    refine spans_current (spans_ite (fun hpipe => ?_) fun _ => spans_pure hvalue)
    refine spans_advance (kind_of_isOperator hpipe) ?_
    exact spans_bind (spans_pipeCallee hg hvalue) fun j found _ hfound =>
      spans_locate (ih hfound)

theorem spans_expressionWith :
    Spans b i (expressionWith g) fun j e => Occupies b.place (.expr e) i j :=
  spans_bind (spans_operand hg) fun _ _ _ hvalue => spans_pipes hg hvalue

end ScriptLang.Grammar
