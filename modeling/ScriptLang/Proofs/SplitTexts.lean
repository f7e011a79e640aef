import Mathlib.Data.List.Infix
import ScriptLang.Proofs.SparedContainers

/-!
# Splitting, joining and replacing

A pattern may overlap itself in a text, touch an end, or stand twice in a row, so a text may be cut
at the pattern in more than one way. Splitting at a pattern, replacing it everywhere and replacing
it once are three computations, and all of them go by the same cuts: from left to right, each at the
first place after the one before.

* `Replace.Clear` says that no occurrence of a pattern begins in the first part of a text. It is
  about the whole text, since an occurrence may reach beyond the part that it begins in.
* `Replace.Cuts` are the cuts: the pieces of a text at the first occurrence of a pattern, and then
  of what follows it. Every text has them (`Replace.exists_cuts`), and each of the three
  computations follows them (`Replace.Cuts.piecesFrom_eq`, `Replace.Cuts.allFrom_eq`,
  `Replace.Cuts.firstFrom_eq`).
* So what joins the pieces is a fact about cuts alone: the pattern gives the text back
  (`Replace.Cuts.intercalate_eq`), and no piece has the pattern inside
  (`Replace.Cuts.not_infix`).
* `splitting_agrees_with_replacing` is the main statement. The empty text is no pattern; splitting
  at it gives the characters.
-/

namespace ScriptLang

namespace Replace

variable {pattern before rest cs : List Char} {pieces : List (List Char)}
  {c : Char}

/-! ### Cuts -/

/-- **Clear.** No occurrence of the pattern begins in `before`, where `rest` follows. -/
def Clear (pattern before rest : List Char) : Prop :=
  ∀ i < before.length, ¬ pattern <+: (before ++ rest).drop i

theorem clear_nil (pattern rest : List Char) : Clear pattern [] rest :=
  fun _ hi => absurd hi (Nat.not_lt_zero _)

theorem clear_cons : Clear pattern (c :: before) rest ↔
    ¬ pattern <+: c :: (before ++ rest) ∧ Clear pattern before rest := by
  constructor
  · intro h
    exact ⟨h 0 (Nat.succ_pos _), fun i hi => h (i + 1) (Nat.succ_lt_succ hi)⟩
  · rintro ⟨hfirst, h⟩ (_ | i) hi
    · exact hfirst
    · exact h i (Nat.lt_of_succ_lt_succ hi)

/-- A text without the pattern is clear. -/
theorem clear_of_absent (h : ¬ pattern <:+: cs) : Clear pattern cs [] := by
  intro i _ hi
  rw [List.append_nil] at hi
  exact h (hi.isInfix.trans (List.drop_suffix i cs).isInfix)

/-- A clear part does not have the pattern inside. -/
theorem Clear.not_infix (hpattern : pattern ≠ []) (h : Clear pattern before rest) :
    ¬ pattern <:+: before := by
  rintro ⟨s, t, rfl⟩
  have hlength := List.length_pos_of_ne_nil hpattern
  -- What is inside of the first part begins there in the whole text, too.
  refine h s.length (by simp only [List.length_append]; omega) ?_
  rw [List.append_assoc, List.append_assoc, List.drop_left]
  exact List.prefix_append pattern (t ++ rest)

/-- **Cuts.** A text without the pattern is one piece. Any other one is cut at the first occurrence
of the pattern, and what follows the occurrence is cut in the same way. -/
inductive Cuts (pattern : List Char) : List Char → List (List Char) → Prop
  | whole {cs : List Char} (hnone : ¬ pattern <:+: cs) : Cuts pattern cs [cs]
  | cut {before after : List Char} {pieces : List (List Char)}
    (hfirst : Clear pattern before (pattern ++ after)) (hrest : Cuts pattern after pieces) :
    Cuts pattern (before ++ (pattern ++ after)) (before :: pieces)

/-- A text has a first occurrence of a pattern, or none at all. -/
theorem exists_clear (hpattern : pattern ≠ []) (cs : List Char) :
    ¬ pattern <:+: cs ∨
      ∃ before after, cs = before ++ (pattern ++ after) ∧
        Clear pattern before (pattern ++ after) := by
  induction cs with
  | nil => exact .inl fun h => hpattern (List.infix_nil.mp h)
  | cons c cs ih =>
    by_cases hhere : pattern <+: c :: cs
    · obtain ⟨after, hafter⟩ := hhere
      exact .inr ⟨[], after, hafter.symm, clear_nil _ _⟩
    · rcases ih with hnone | ⟨before, after, rfl, hclear⟩
      · exact .inl fun h => (List.infix_cons_iff.mp h).elim hhere hnone
      · exact .inr ⟨c :: before, after, rfl, clear_cons.mpr ⟨hhere, hclear⟩⟩

/-- Every text has its cuts. What follows an occurrence is shorter, since the pattern is not empty.
-/
theorem exists_cuts (hpattern : pattern ≠ []) (cs : List Char) :
    ∃ pieces, Cuts pattern cs pieces := by
  induction hn : cs.length using Nat.strong_induction_on generalizing cs with
  | h n ih =>
    rcases exists_clear hpattern cs with hnone | ⟨before, after, rfl, hclear⟩
    · exact ⟨[cs], .whole hnone⟩
    · have hlength := List.length_pos_of_ne_nil hpattern
      simp only [List.length_append] at hn
      obtain ⟨pieces, hpieces⟩ := ih after.length (by omega) after rfl
      exact ⟨before :: pieces, .cut hclear hpieces⟩

namespace Cuts

theorem ne_nil (h : Cuts pattern cs pieces) : pieces ≠ [] := by
  cases h <;> exact List.cons_ne_nil _ _

/-- The pattern joins the pieces to the text. -/
theorem intercalate_eq (h : Cuts pattern cs pieces) : pattern.intercalate pieces = cs := by
  induction h with
  | whole _ => exact List.intercalate_singleton
  | cut _ hrest ih =>
    rw [List.intercalate_cons_of_ne_nil hrest.ne_nil, ih, List.append_assoc]

/-- No piece has the pattern inside. -/
theorem not_infix (hpattern : pattern ≠ []) (h : Cuts pattern cs pieces) :
    ∀ p ∈ pieces, ¬ pattern <:+: p := by
  induction h with
  | whole hnone =>
    intro p hp
    rwa [List.mem_singleton.mp hp]
  | cut hfirst _ ih =>
    intro p hp
    rcases List.mem_cons.mp hp with rfl | hp
    · exact hfirst.not_infix hpattern
    · exact ih p hp

end Cuts

/-! ### Splitting -/

/-- What is skipped does not matter. -/
theorem piecesFrom_skip (skip : Nat) (piece cs : List Char) :
    piecesFrom pattern skip piece cs = piecesFrom pattern 0 piece (cs.drop skip) := by
  induction cs generalizing skip with
  | nil => cases skip <;> rfl
  | cons c cs ih =>
    cases skip with
    | zero => rfl
    | succ skip => exact ih skip

/-- A clear part goes into the piece as it is. -/
theorem piecesFrom_clear (h : Clear pattern before rest) (piece : List Char) :
    piecesFrom pattern 0 piece (before ++ rest) =
      piecesFrom pattern 0 (before.reverse ++ piece) rest := by
  induction before generalizing piece with
  | nil => rfl
  | cons c before ih =>
    obtain ⟨hhere, h⟩ := clear_cons.mp h
    rw [List.cons_append, piecesFrom, if_neg (mt List.isPrefixOf_iff_prefix.mp hhere), ih h,
      List.reverse_cons, List.append_assoc, List.singleton_append]

/-- An occurrence ends the piece. -/
theorem piecesFrom_pattern (hpattern : pattern ≠ []) (piece after : List Char) :
    piecesFrom pattern 0 piece (pattern ++ after) =
      piece.reverse :: piecesFrom pattern 0 [] after := by
  obtain ⟨c, cs, rfl⟩ := List.exists_cons_of_ne_nil hpattern
  have hhere : (c :: cs).isPrefixOf (c :: (cs ++ after)) = true :=
    List.isPrefixOf_iff_prefix.mpr (List.prefix_append (c :: cs) after)
  -- The first character of the occurrence is read here, and the other ones are skipped.
  rw [List.cons_append, piecesFrom, if_pos hhere, piecesFrom_skip]
  exact congrArg (fun rest => piece.reverse :: piecesFrom (c :: cs) 0 [] rest) List.drop_left

/-- **Splitting follows the cuts.** -/
theorem Cuts.piecesFrom_eq (hpattern : pattern ≠ []) (h : Cuts pattern cs pieces) :
    piecesFrom pattern 0 [] cs = pieces := by
  induction h with
  | @whole cs hnone =>
    have hclear := piecesFrom_clear (clear_of_absent hnone) []
    rw [List.append_nil, List.append_nil, piecesFrom, List.reverse_reverse] at hclear
    exact hclear
  | @cut before after pieces hfirst _ ih =>
    rw [piecesFrom_clear hfirst, piecesFrom_pattern hpattern, ih, List.append_nil,
      List.reverse_reverse]

/-! ### Replacing everywhere -/

theorem piecesFrom_ne_nil (skip : Nat) (piece cs : List Char) :
    piecesFrom pattern skip piece cs ≠ [] := by
  fun_induction piecesFrom pattern skip piece cs with
  | case1 => exact List.cons_ne_nil _ _
  | case2 => assumption
  | case3 => exact List.cons_ne_nil _ _
  | case4 => assumption

/-- Where a piece ends, the replacement is written. By induction on what both computations read,
with what the piece holds so far. -/
theorem intercalate_piecesFrom (replacement : List Char) (skip : Nat) (piece cs : List Char) :
    replacement.intercalate (piecesFrom pattern skip piece cs) =
      piece.reverse ++ allFrom pattern replacement skip cs := by
  fun_induction piecesFrom pattern skip piece cs with
  | case1 skip piece =>
    rw [List.intercalate_singleton, allFrom, List.append_nil]
  | case2 skip piece c cs ih =>
    rw [ih, allFrom]
  | case3 piece c cs hhere ih =>
    rw [List.intercalate_cons_of_ne_nil (piecesFrom_ne_nil _ _ _), ih, allFrom, if_pos hhere,
      List.reverse_nil, List.nil_append, List.append_assoc]
  | case4 piece c cs hhere ih =>
    rw [ih, allFrom, if_neg hhere, List.reverse_cons, List.append_assoc, List.singleton_append]

/-- **Replacing everywhere follows the cuts.** The replacement joins the pieces. -/
theorem Cuts.allFrom_eq (hpattern : pattern ≠ []) (h : Cuts pattern cs pieces)
    (replacement : List Char) :
    allFrom pattern replacement 0 cs = replacement.intercalate pieces := by
  rw [← h.piecesFrom_eq hpattern, intercalate_piecesFrom, List.reverse_nil, List.nil_append]

/-! ### Replacing once -/

theorem afterPattern?_append (pattern after : List Char) :
    afterPattern? pattern (pattern ++ after) = some after := by
  induction pattern with
  | nil => rfl
  | cons c cs ih => rw [List.cons_append, afterPattern?, if_pos rfl, ih]

theorem afterPattern?_eq_none (h : ¬ pattern <+: cs) : afterPattern? pattern cs = none := by
  induction pattern generalizing cs with
  | nil => exact absurd List.nil_prefix h
  | cons p ps ih =>
    cases cs with
    | nil => rfl
    | cons c cs =>
      rw [List.cons_prefix_cons, not_and] at h
      rw [afterPattern?]
      split
      next hpc => exact ih (h hpc)
      next => rfl

theorem firstFrom_clear (replacement : List Char) (h : Clear pattern before rest) :
    firstFrom pattern replacement (before ++ rest) =
      before ++ firstFrom pattern replacement rest := by
  induction before with
  | nil => rfl
  | cons c before ih =>
    obtain ⟨hhere, h⟩ := clear_cons.mp h
    rw [List.cons_append, firstFrom, afterPattern?_eq_none hhere]
    exact congrArg (c :: ·) (ih h)

theorem firstFrom_pattern (hpattern : pattern ≠ []) (replacement after : List Char) :
    firstFrom pattern replacement (pattern ++ after) = replacement ++ after := by
  obtain ⟨c, cs, rfl⟩ := List.exists_cons_of_ne_nil hpattern
  have hafter := afterPattern?_append (c :: cs) after
  rw [List.cons_append] at hafter ⊢
  rw [firstFrom, hafter]

/-- **Replacing once follows the first cut.** The pattern still joins all pieces but the first. -/
theorem Cuts.firstFrom_eq (hpattern : pattern ≠ []) (h : Cuts pattern cs (before :: pieces))
    (replacement : List Char) :
    firstFrom pattern replacement cs =
      if pieces = [] then before else before ++ replacement ++ pattern.intercalate pieces := by
  cases h with
  | whole hnone =>
    have hclear := firstFrom_clear replacement (clear_of_absent hnone)
    -- At the end of the text, the computation asks once more whether the pattern is empty.
    have hempty : pattern.isEmpty = false := by simpa using hpattern
    rw [List.append_nil, firstFrom, hempty] at hclear
    rw [if_pos rfl, hclear]
    exact List.append_nil before
  -- The rest is not computed any further, so it is the text of the other pieces.
  | cut hfirst hrest =>
    rw [if_neg hrest.ne_nil, firstFrom_clear replacement hfirst, firstFrom_pattern hpattern,
      hrest.intercalate_eq, List.append_assoc]

/-! ### Texts -/

theorem intercalate_map_ofList (separator : String) (pieces : List (List Char)) :
    String.intercalate separator (pieces.map String.ofList) =
      String.ofList (separator.toList.intercalate pieces) := by
  rw [← String.toList_inj, String.toList_intercalate, String.toList_ofList, List.map_map]
  simp [Function.comp_def]

/-- One character each, with nothing between them. -/
theorem intercalate_singletons (cs : List Char) :
    ([] : List Char).intercalate (cs.map ([·])) = cs := by
  induction cs with
  | nil => rfl
  | cons c cs ih =>
    cases cs with
    | nil => exact List.intercalate_singleton
    | cons d cs =>
      have hmore : (d :: cs).map ([·]) ≠ [] := List.cons_ne_nil _ _
      rw [List.map_cons, List.intercalate_cons_of_ne_nil hmore, ih, List.append_nil,
        List.singleton_append]

/-- The characters of a text join to the text. -/
theorem intercalate_characters (s : String) :
    String.intercalate "" (s.toList.map Char.toString) = s := by
  have hsingle : s.toList.map Char.toString = (s.toList.map ([·])).map String.ofList := by
    rw [List.map_map]
    exact List.map_congr_left fun c _ => String.toList_inj.mp rfl
  rw [hsingle, intercalate_map_ofList, String.toList_empty, intercalate_singletons,
    String.ofList_toList]

/-- What a text is split into, and what comes of the pieces. -/
theorem exists_splitAt {pattern : String} (hpattern : pattern ≠ "") (s : String) :
    ∃ first others, splitAt pattern s = first :: others ∧
      (∀ p ∈ first :: others, ¬ pattern.toList <:+: p.toList) ∧
      String.intercalate pattern (first :: others) = s ∧
      (∀ r, all pattern r s = String.intercalate r (first :: others)) ∧
      ∀ r, Replace.first pattern r s =
        if others = [] then first else first ++ r ++ String.intercalate pattern others := by
  have hchars : pattern.toList ≠ [] := fun h => hpattern (String.toList_eq_nil_iff.mp h)
  -- All that is said about the pieces follows from where the text is cut.
  obtain ⟨pieces, hcuts⟩ := exists_cuts hchars s.toList
  obtain ⟨before, others, rfl⟩ := List.exists_cons_of_ne_nil hcuts.ne_nil
  have hsplit : splitAt pattern s = (before :: others).map String.ofList := by
    rw [splitAt, hcuts.piecesFrom_eq hchars]
  refine ⟨String.ofList before, others.map String.ofList, hsplit, ?inside, ?joined, fun r => ?all,
    fun r => ?first⟩
  case inside =>
    rw [← List.map_cons]
    intro p hp
    obtain ⟨piece, hpiece, rfl⟩ := List.mem_map.mp hp
    rw [String.toList_ofList]
    exact hcuts.not_infix hchars piece hpiece
  case joined =>
    rw [← List.map_cons, intercalate_map_ofList, hcuts.intercalate_eq, String.ofList_toList]
  case all =>
    have hempty : pattern.isEmpty = false := by simpa using hpattern
    rw [← List.map_cons, intercalate_map_ofList, all, hempty, hcuts.allFrom_eq hchars]
    rfl
  case first =>
    rw [Replace.first, hcuts.firstFrom_eq hchars, intercalate_map_ofList]
    split
    next hnone => rw [if_pos (by rw [hnone, List.map_nil])]
    next hsome =>
      rw [if_neg (mt List.map_eq_nil_iff.mp hsome), String.ofList_append, String.ofList_append,
        String.ofList_toList]

end Replace

/-! ### The functions -/

section Calls

variable (ev : Evaluator) (loc : Location) (m : Machine)

theorem CoreFn.call_join {parts : List String} {v : Value}
    (hv : m.heap.IsArray (parts.map .string) v) (separator : String) :
    (Builtin.core .join).call ev [v, .string separator] loc m =
      .ok (.string (String.intercalate separator parts)) m := by
  obtain ⟨r, rfl, hr⟩ := hv
  rw [Builtin.call_of_accepts rfl]
  change Outcome.ok (Value.string (String.intercalate separator
    ((m.heap.array r).toList.map m.heap.print))) m = _
  -- A text is printed as itself.
  have hprint : (parts.map Value.string).map m.heap.print = parts := by
    rw [List.map_map]
    exact List.map_id parts
  rw [hr, hprint]

theorem StringFn.call_split (s separator : String) :
    (Builtin.string .split).call ev [.string s, .string separator] loc m =
      Eval.newList ((pieces s (some separator)).map .string) m := by
  rw [Builtin.call_of_accepts rfl]
  change Eval.newList (((pieces s (some separator)).take _).map .string) m = _
  rw [List.take_length]

theorem StringFn.call_replace (pattern s r : String) :
    (Builtin.string .replace).call ev [.string s, .string pattern, .string r] loc m =
      .ok (.string (Replace.first pattern r s)) m := by
  rw [Builtin.call_of_accepts rfl]
  rfl

theorem StringFn.call_replaceAll (pattern s r : String) :
    (Builtin.string .replaceAll).call ev [.string s, .string pattern, .string r] loc m =
      .ok (.string (Replace.all pattern r s)) m := by
  rw [Builtin.call_of_accepts rfl]
  rfl

end Calls

/-- **Splitting agrees with replacing.** At a pattern that is not empty, a text is split into parts
without the pattern. Joined with the pattern, the parts are the text again; joined with another
text, they are the text with the pattern replaced everywhere. To replace the pattern once is to join
the first part and what remains. At the empty text, a text is split into its characters, and these
are joined to it again. -/
theorem splitting_agrees_with_replacing (ev : Evaluator) (loc : Location) (m : Machine)
    (s : String) :
    let split (sep : String) := (Builtin.string .split).call ev [.string s, .string sep] loc
    let join (parts : Value) (sep : String) :=
      (Builtin.core .join).call ev [parts, .string sep] loc
    let replaced (f : StringFn) (sep r : String) :=
      (Builtin.string f).call ev [.string s, .string sep, .string r] loc
    (∀ sep, sep ≠ "" → ∃ first others parts n, split sep m = .ok parts n ∧
      n.heap.IsArray ((first :: others).map .string) parts ∧
      (∀ p ∈ first :: others, ¬ sep.toList <:+: p.toList) ∧
      join parts sep n = .ok (.string s) n ∧
      ∀ r, (∃ t, join parts r n = .ok (.string t) n ∧
          replaced .replaceAll sep r m = .ok (.string t) m) ∧
        replaced .replace sep r m = .ok (.string
          (if others = [] then first else first ++ r ++ String.intercalate sep others)) m) ∧
    ∃ parts n, split "" m = .ok parts n ∧
      n.heap.IsArray (s.toList.map fun c => .string c.toString) parts ∧
      join parts "" n = .ok (.string s) n := by
  intro split join replaced
  have hsplit (sep : String) : ∃ parts n, split sep m = .ok parts n ∧
      n.heap.IsArray ((StringFn.pieces s (some sep)).map .string) parts := by
    obtain ⟨parts, c, n, hparts, -, -, -, harray⟩ :=
      Eval.Creates.of_newList ((StringFn.pieces s (some sep)).map .string) m
    exact ⟨parts, n, (StringFn.call_split ev loc m s sep).trans hparts, harray⟩
  refine ⟨fun sep hsep => ?pattern, ?characters⟩
  case pattern =>
    obtain ⟨first, others, hpieces, hinside, hjoined, hall, hfirst⟩ :=
      Replace.exists_splitAt hsep s
    obtain ⟨parts, n, hparts, harray⟩ := hsplit sep
    have hempty : sep.isEmpty = false := by simpa using hsep
    rw [StringFn.pieces, hempty, if_neg Bool.false_ne_true, hpieces] at harray
    refine ⟨first, others, parts, n, hparts, harray, hinside, ?_, fun r => ⟨⟨_,
      CoreFn.call_join ev loc n harray r, ?_⟩, ?_⟩⟩
    · rw [← hjoined]
      exact CoreFn.call_join ev loc n harray sep
    · rw [← hall r]
      exact StringFn.call_replaceAll ev loc m sep s r
    · rw [← hfirst r]
      exact StringFn.call_replace ev loc m sep s r
  case characters =>
    obtain ⟨parts, n, hparts, harray⟩ := hsplit ""
    have hpieces : StringFn.pieces s (some "") = s.toList.map Char.toString := rfl
    rw [hpieces] at harray
    have hjoin := CoreFn.call_join ev loc n harray ""
    rw [Replace.intercalate_characters] at hjoin
    rw [List.map_map] at harray
    exact ⟨parts, n, hparts, harray, hjoin⟩

/-- The two occurrences of `"aa"` in `"aaa"` overlap, so only the first one is a cut. -/
theorem splitting_agrees_with_replacing_overlapping :
    let ev := Evaluator.ofBound 0
    let m : Machine := {}
    let n : Machine := { heap := { arrays := #[#[.string "", .string "a"]] } }
    let join (sep : String) := (Builtin.core .join).call ev [.array 0, .string sep] default
    let replaced (f : StringFn) (r : String) :=
      (Builtin.string f).call ev [.string "aaa", .string "aa", .string r] default
    "aa" ≠ "" ∧
      (Builtin.string .split).call ev [.string "aaa", .string "aa"] default m =
        .ok (.array 0) n ∧
      join "aa" n = .ok (.string "aaa") n ∧
      (∀ r, ∃ t, join r n = .ok (.string t) n ∧ replaced .replaceAll r m = .ok (.string t) m) ∧
      ∀ r, replaced .replace r m = .ok (.string (r ++ "a")) m := by
  intro ev m n join replaced
  have hne : "aa" ≠ "" := by decide
  have hcut : (Builtin.string .split).call ev [.string "aaa", .string "aa"] default m =
    .ok (.array 0) n := rfl
  obtain ⟨agrees, -⟩ := splitting_agrees_with_replacing ev default m "aaa"
  obtain ⟨first, others, parts, n', hsplit, harray, -, hjoin, hreplaced⟩ := agrees "aa" hne
  obtain ⟨rfl, rfl⟩ := Outcome.ok.inj (hcut.symm.trans hsplit)
  -- The array that was created tells the two parts.
  obtain ⟨r, hr, hparts⟩ := harray
  obtain rfl := Value.array.inj hr
  have helems : ["", "a"].map Value.string = (first :: others).map .string := hparts
  have hinjective : Function.Injective Value.string := fun _ _ => Value.string.inj
  obtain ⟨rfl, rfl⟩ := List.cons.inj (List.map_injective_iff.mpr hinjective helems)
  refine ⟨hne, hcut, hjoin, fun r => (hreplaced r).1, fun r => ?_⟩
  have honce := (hreplaced r).2
  rwa [if_neg (List.cons_ne_nil "a" []), String.empty_append] at honce

end ScriptLang
