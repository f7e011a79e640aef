import ScriptLang.Proofs.IndexedMaps
import ScriptLang.Proofs.RoundTrip
import ScriptLang.Proofs.SpelledLiterals
import ScriptLang.Proofs.Steps

/-!
# Literals are read back as what they spell

A text that is written as a string literal is read, and computed, as the text; pieces that are
written as a template are read as a template of these pieces, whose value is the texts and the
printed values of the names one after the other.

* `Program.ofTokens_expression` reads a program that is one expression, given that the expression is
  rendered by its tokens (`Renders`) and does not start with a word.
* `Eval.partsOnto_pieces` computes the pieces of a template.
* `Machine.runSource_expression` runs a program that is one expression.
* **Main statement**, `literals_round_trip`: both, from the text of a source to the value.
-/

open ScriptLang.Parser

namespace ScriptLang

namespace Piece

/-- The part of a template that a piece is. -/
def part : Piece → Part
  | text s => .text s
  | name x => .expr (.ident default x)

/-- What a piece contributes to the value of a template, given what the names are bound to. -/
def shown (h : Heap) (value : String → Value) : Piece → String
  | text s => s
  | name x => h.print (value x)

end Piece

/-! ### Reading -/

/-- A list that ends in an `eof` token is closed already. -/
theorem Cursor.close_concat (ts : List Token) {stop : Token} (hstop : stop.kind = .eof)
    (file : String) : close (ts ++ [stop]) file = (ts ++ [stop], stop) := by
  simp [close, hstop]

namespace Grammar

variable {g : Grammar} {t : Token} {us vs : List Token} {p : Expr → Prop}

/-- A statement that starts with no word is an expression. -/
theorem takes_statementWith_expression (hend : t.kind ≠ .eof) (hword : t.kind ≠ .keyword)
    (hname : t.kind ≠ .identifier) (hg : Takes g.expression (t :: us) vs p) :
    Takes (statementWith g) (t :: us) vs fun s => ∃ e, p e ∧ s = .expr e.location e := by
  refine takes_then takes_current ?_
  rw [if_neg hend, if_neg hword]
  have hpeek : Takes (look (·.peek 1)) (t :: us) (t :: us) fun _ => True :=
    fun c hc => ⟨_, c, rfl, hc, trivial⟩
  refine takes_after hpeek fun ahead => ?_
  rw [if_neg fun h => hname h.1]
  exact takes_bind hg fun e he => takes_pure ⟨e, he, rfl⟩

end Grammar

namespace Program

variable {g : Grammar} {t stop : Token} {us : List Token} {p : Stmt → Prop}

/-- A program that is one statement. -/
theorem takes_parser_single (hend : t.kind ≠ .eof) (hstop : stop.kind = .eof)
    (hbound : 2 ≤ g.bound) (hg : Takes g.statement (t :: us) [stop] p) :
    Takes (parser g) (t :: us) [stop] fun found => ∃ s, p s ∧ found.statements = [s] := by
  have hgoes (ts : List Token) (u : Token) :
      Takes (look (·.atEnd)) (u :: ts) (u :: ts) (· = (u.kind == .eof)) :=
    takes_check .eof
  obtain ⟨bound, hb⟩ := Nat.exists_eq_add_of_le' hbound
  refine takes_then takes_current (takes_after (takes_locate t) fun loc => ?_)
  rw [hb]
  refine takes_bind (p := fun ss => ∃ s, p s ∧ ss = [s]) ?_ fun ss hss => takes_pure hss
  -- One round reads the statement, and the next one finds the end.
  refine takes_then (hgoes us t) ?_
  rw [if_neg (by simpa using hend)]
  refine takes_bind hg fun s hs => ?_
  refine takes_then (a := []) ?_ (takes_pure ⟨s, hs, rfl⟩)
  refine takes_then (hgoes [] stop) ?_
  rw [if_pos (by simpa using hstop)]
  exact takes_pure rfl

/-- A program that is one expression is read as the expression, up to its places. -/
theorem ofTokens_expression {e : Expr} {t stop : Token} {us : List Token}
    (hr : Renders (.expr e) (t :: us)) (hend : t.kind ≠ .eof) (hword : t.kind ≠ .keyword)
    (hname : t.kind ≠ .identifier) (hstop : stop.kind = .eof) (file : String) :
    ∃ loc loc' e', e'.unlocated = e.unlocated ∧
      ∀ source, ofTokens (t :: us ++ [stop]) file source = .ok ⟨[.expr loc e'], loc'⟩ := by
  -- The grammar that reads the program is as deep as the tokens need.
  let c := Cursor.ofTokens .ample (t :: us ++ [stop]) file
  have htokens : c.tokens = (t :: us ++ [stop]).toArray := by
    simp only [c, Cursor.ofTokens, Cursor.close_concat (t :: us) hstop file]
  have hfaces : c.Faces (t :: us ++ [stop]) := by
    unfold Cursor.Faces
    rw [htokens]
    rfl
  have hsize : c.tokens.size = us.length + 2 := by simp [htokens]
  have hexpression : Takes (Grammar.ofBound (2 * c.tokens.size + 3)).expression
      (t :: us ++ [stop]) [stop] (·.unlocated = e.unlocated) := by
    refine hr.taken _ stop [] ?_ (.inl (by simp [Token.endsExpression_eq, hstop]))
    simp only [List.length_cons]
    omega
  have hprogram := takes_parser_single (g := Grammar.ofBound (2 * c.tokens.size + 4)) hend hstop
    (by rw [Grammar.ofBound_bound]; omega)
    (Grammar.takes_statementWith_expression hend hword hname hexpression) c hfaces
  obtain ⟨⟨ss, loc'⟩, c', hrun, -, s, ⟨e', he', rfl⟩, hss⟩ := hprogram
  obtain rfl : ss = [.expr e'.location e'] := hss
  refine ⟨e'.location, loc', e', he', fun source => ofTokens_eq_ok_iff.mpr ⟨c', ?_⟩⟩
  rw [parse_of_not_overflows rfl]
  exact hrun

end Program

/-- The tokens of some pieces render the parts of a template. -/
theorem renders_pieces {ps : List Piece} (h : ∀ p ∈ ps, p.IsProper) {ts : List Token}
    (hts : ts.map Token.word = ps.flatMap Piece.words) :
    Renders (.parts (ps.map Piece.part)) ts := by
  induction ps generalizing ts with
  | nil =>
    obtain rfl : ts = [] := List.map_eq_nil_iff.mp hts
    exact .noParts
  | cons p ps ih =>
    have hp := h p List.mem_cons_self
    have hps : ∀ q ∈ ps, q.IsProper := fun q hq => h q (List.mem_cons_of_mem _ hq)
    cases p with
    | text s =>
      obtain ⟨t, us, rfl, ht, hus⟩ := List.map_eq_cons_iff.mp hts
      obtain ⟨hkind, rfl⟩ := Prod.mk.inj ht
      exact .text hkind hp (ih hps hus)
    | name x =>
      -- A name stands between the two marks of an interpolation.
      obtain ⟨opening, us₁, rfl, hopening, hus₁⟩ := List.map_eq_cons_iff.mp hts
      obtain ⟨t, us₂, rfl, ht, hus₂⟩ := List.map_eq_cons_iff.mp hus₁
      obtain ⟨closing, us₃, rfl, hclosing, hus₃⟩ := List.map_eq_cons_iff.mp hus₂
      obtain ⟨hkind, rfl⟩ := Prod.mk.inj ht
      exact .interpolation (Prod.mk.inj hopening).1 (.ident hkind) (Prod.mk.inj hclosing).1
        (ih hps hus₃)

/-- The parts that pieces are have no places. -/
theorem unlocatedParts_pieces (ps : List Piece) :
    unlocatedParts (ps.map Piece.part) = ps.map Piece.part := by
  induction ps with
  | nil => rfl
  | cons p ps ih =>
    cases p with
    | text s => exact congrArg (List.cons _) ih
    | name x => exact congrArg (List.cons _) ih

/-! ### Computing -/

namespace Eval

/-- The parts of a template that are some pieces up to their places contribute what the pieces
do. -/
theorem partsOnto_pieces {ev : Evaluator} {m : Machine} {value : String → Value}
    {ps : List Piece}
    (hname : ∀ x, .name x ∈ ps → ∀ loc, ev.expr (.ident loc x) m = .ok (value x) m)
    {parts : List Part} (hparts : unlocatedParts parts = ps.map Piece.part) (done : String) :
    partsOnto ev done parts m =
      .ok ((ps.map (Piece.shown m.heap value)).foldl (· ++ ·) done) m := by
  induction ps generalizing parts done with
  | nil =>
    cases parts with
    | nil => rfl
    | cons part parts => cases hparts
  | cons p ps ih =>
    cases parts with
    | nil => cases hparts
    | cons part parts =>
      obtain ⟨hpart, hrest⟩ := List.cons.inj hparts
      have ih' := ih (fun x hx => hname x (List.mem_cons_of_mem _ hx)) hrest
      cases p with
      | text s =>
        cases part with
        | expr e => cases hpart
        | text s' =>
          obtain rfl : s' = s := Part.text.inj hpart
          exact ih' _
      | name x =>
        cases part with
        | text s => cases hpart
        | expr e =>
          have he : e.unlocated = .ident default x := Part.expr.inj hpart
          -- Only a name is a name without its place.
          cases e <;> simp only [Expr.unlocated, reduceCtorEq, Expr.ident.injEq] at he
          case ident loc y =>
            obtain rfl : y = x := he.2
            rw [partsOnto, bind_of_ok (hname y List.mem_cons_self loc), bind_of_ok (print_eq _ _)]
            exact ih' _

/-- The value of a template is what its pieces show, one after the other. -/
theorem expression_template {ev : Evaluator} {m : Machine} {value : String → Value}
    {ps : List Piece}
    (hname : ∀ x, .name x ∈ ps → ∀ loc, ev.expr (.ident loc x) m = .ok (value x) m)
    {e : Expr} (he : e.unlocated = .template default (ps.map Piece.part)) :
    expression ev e m = .ok (.string (String.join (ps.map (Piece.shown m.heap value)))) m := by
  cases e <;> simp only [Expr.unlocated, reduceCtorEq, Expr.template.injEq] at he
  case template loc parts =>
    rw [expression, bind_of_ok (partsOnto_pieces hname he.2 "")]
    rfl

/-- A name that is bound has the value that it is bound to. -/
theorem expression_ident (ev : Evaluator) {m : Machine} {loc : Location} {x : String} {v : Value}
    (hx : m.scopes.lookup? x m.context.scope = some v) :
    expression ev (.ident loc x) m = .ok v m := by
  have hlook : look (fun m => m.scopes.lookup? x m.context.scope) m = .ok (some v) m := by
    rw [← hx]
    rfl
  rw [expression, nameValue, bind_of_ok hlook]
  rfl

end Eval

namespace Evaluator

/-- The evaluator that runs programs goes through the rules of the language, several times. -/
theorem exists_full : ∃ n, full = (((ofBound n).deeper n).deeper (n + 1)).deeper (n + 2) := by
  refine ⟨Nat.pow 2 60 - 4, ?_⟩
  rw [← ofBound_succ, ← ofBound_succ, ← ofBound_succ]
  rfl

end Evaluator

namespace Eval

variable {α : Type} {x : Eval α} {m m' : Machine} {a : α} {enter leave : Context → Context}

theorem inContext_of_ok (h : x (overContext enter m) = .ok a m') :
    inContext enter leave x m = .ok a (overContext leave m') := by
  unfold inContext
  rw [h]

theorem inCall_of_ok {frame : CallFrame} {calls : CallStack}
    (hpush : m.context.calls.push frame = .ok calls)
    (h : x (overContext (·.withCalls calls) m) = .ok a m') :
    inCall frame x m = .ok a (overContext (fun c => c.withCalls c.calls.pop) m') := by
  unfold inCall
  rw [hpush]
  refine inContext_of_ok ?_
  unfold attaching
  rw [h]

end Eval

namespace Machine

theorem completed_of_ok {α : Type} {x : Eval α} {m m' : Machine} {a : α} (h : x m = .ok a m') :
    completed x m = .ok a m' := by
  unfold completed
  rw [h]

/-- Running a program that is one expression gives the value that the expression has in the root
scope. -/
theorem interpret_expression {m : Machine} {e : Expr} {v : Value} (loc loc' : Location)
    (file : String) (hroom : m.context.calls.hasRoom = true)
    (he : ∀ (ev : Evaluator) (k : Nat) (m' : Machine), m'.heap = m.heap → m'.scopes = m.scopes →
      m'.context.scope = Scopes.root → Eval.expression (ev.deeper k) e m' = .ok v m') :
    ∃ m', interpret ⟨[.expr loc e], loc'⟩ file m = .ok v m' := by
  -- The program runs as a call, in the root scope, of one statement.
  obtain ⟨n, hfull⟩ := Evaluator.exists_full
  obtain ⟨calls, hpush⟩ : ∃ calls, m.context.calls.push ⟨rootName, loc'⟩ = .ok calls := by
    unfold CallStack.push
    rw [if_pos hroom]
    exact ⟨_, rfl⟩
  let inner := Eval.overContext (·.enterFile Scopes.root file)
    (Eval.overContext (·.withCalls calls) m)
  have hexpression := he (Evaluator.ofBound n) n inner rfl rfl rfl
  have hstatement : Evaluator.full.stmt (.expr loc e) inner = .ok (.normal v) inner := by
    rw [hfull]
    exact Eval.bind_of_ok hexpression
  have hbody : (do (← Eval.runStatements Evaluator.full [.expr loc e]).atBoundary fun v => v :
      Eval Value) inner = .ok v inner := by
    have hrun : Eval.runStatements Evaluator.full [.expr loc e] inner = .ok (.normal v) inner :=
      Eval.bind_of_ok hstatement
    exact Eval.bind_of_ok hrun
  have hfile : Eval.inFile _ file _ (Eval.overContext (·.withCalls calls) m) = .ok v _ :=
    Eval.inContext_of_ok hbody
  exact ⟨_, completed_of_ok (Eval.inCall_of_ok hpush hfile)⟩

/-- The same for a source that is read as one expression. -/
theorem runSource_expression {m : Machine} {source file : String} {ts : List Token} {e : Expr}
    {v : Value} {loc loc' : Location} (htokens : Lexer.tokenize source file = .ok ts)
    (hprogram : Program.ofTokens ts file (some source) = .ok ⟨[.expr loc e], loc'⟩)
    (hroom : m.context.calls.hasRoom = true)
    (he : ∀ (ev : Evaluator) (k : Nat) (m' : Machine), m'.heap = m.heap → m'.scopes = m.scopes →
      m'.context.scope = Scopes.root → Eval.expression (ev.deeper k) e m' = .ok v m') :
    ∃ m', m.runSource source file = (.value v, m') := by
  have hread : Program.ofSource source file = .ok ⟨[.expr loc e], loc'⟩ := by
    simp only [Program.ofSource, htokens, hprogram]
  obtain ⟨m', hrun⟩ := interpret_expression (m := m.addSource file source) loc loc' file hroom he
  refine ⟨m', ?_⟩
  simp only [runSource, hread, run, hrun, finish]

end Machine

/-! ### Round trips -/

/-- What is read as a text is a literal of it. -/
theorem eq_of_unlocated_literal {e : Expr} {value : Literal}
    (he : e.unlocated = .literal default value) : ∃ loc, e = .literal loc value := by
  cases e <;> simp only [Expr.unlocated, reduceCtorEq, Expr.literal.injEq] at he
  case literal loc v => exact ⟨loc, by rw [he.2]⟩

/-- **Literals are read back as what they spell.**

* The string literal for a text is one token with the text as its value, and as a program it gives
  the text.
* The template literal for pieces, of which no text is empty and no two texts are next to each
  other, is read as the pieces between backticks, and as a template of exactly these parts. Its
  value is the texts and the printed values of the names, one after the other: wherever the names
  are bound, and so for the literal as a program if they are bound in the root scope.

A program runs if its file may be entered, that is, if there is room for a call. -/
theorem literals_round_trip :
    (∀ s file : String,
      (∃ ts, Lexer.tokenize (stringLiteral s) file = .ok ts ∧
        ts.map Token.word = [(.string, s), (.eof, "")]) ∧
      ∀ m : Machine, m.context.calls.hasRoom = true →
        ∃ m', m.runSource (stringLiteral s) file = (.value (.string s), m')) ∧
    ∀ (ps : List Piece) (file : String), Piece.Proper ps →
      (∃ ts loc loc' e, Lexer.tokenize (templateLiteral ps) file = .ok ts ∧
        ts.map Token.word = (.backtick, "\x60") :: (ps.flatMap Piece.words ++
          [(.backtick, "\x60"), (.eof, "")]) ∧
        (∀ source, Program.ofTokens ts file source = .ok ⟨[.expr loc e], loc'⟩) ∧
        e.unlocated = .template default (ps.map Piece.part) ∧
        ∀ (m : Machine) (value : String → Value),
          (∀ x, .name x ∈ ps → m.scopes.lookup? x m.context.scope = some (value x)) →
          Evaluator.full.expr e m =
            .ok (.string (String.join (ps.map (Piece.shown m.heap value)))) m) ∧
      ∀ (m : Machine) (value : String → Value), m.context.calls.hasRoom = true →
        (∀ x, .name x ∈ ps → m.scopes.lookup? x Scopes.root = some (value x)) →
        ∃ m', m.runSource (templateLiteral ps) file =
          (.value (.string (String.join (ps.map (Piece.shown m.heap value)))), m') := by
  refine ⟨fun s file => ?_, fun ps file hps => ?_⟩
  · obtain ⟨ts, stop, htokens, hwords, hstop⟩ := Lexer.tokenize_stringLiteral s file
    refine ⟨⟨ts ++ [stop], htokens, by simp [hwords, hstop]⟩, fun m hroom => ?_⟩
    obtain ⟨t, us, rfl, ht, hus⟩ := List.map_eq_cons_iff.mp hwords
    obtain rfl : us = [] := List.map_eq_nil_iff.mp hus
    obtain ⟨hkind, rfl⟩ := Prod.mk.inj ht
    have hrenders : Renders (.expr (.literal default (.string t.value))) [t] :=
      .literal (by simp [Token.literal?, hkind])
    obtain ⟨loc, loc', e, he, hprogram⟩ := Program.ofTokens_expression hrenders (by simp [hkind])
      (by simp [hkind]) (by simp [hkind]) (Prod.mk.inj hstop).1 file
    obtain ⟨place, rfl⟩ := eq_of_unlocated_literal he
    exact Machine.runSource_expression htokens (hprogram _) hroom fun _ _ _ _ _ _ => rfl
  · obtain ⟨ts, stop, htokens, hwords, hstop⟩ := Lexer.tokenize_templateLiteral hps file
    obtain ⟨t, us, rfl, ht, hus⟩ := List.map_eq_cons_iff.mp hwords
    obtain ⟨us, ends, rfl, hpieces, hends⟩ := List.map_eq_append_iff.mp hus
    obtain ⟨closing, rest, rfl, hclosing, hrest⟩ := List.map_eq_cons_iff.mp hends
    obtain rfl : rest = [] := List.map_eq_nil_iff.mp hrest
    have hkind : t.kind = .backtick := (Prod.mk.inj ht).1
    have hrenders :
        Renders (.expr (.template default (ps.map Piece.part))) (t :: (us ++ [closing])) :=
      .template hkind (Prod.mk.inj hclosing).1 (renders_pieces hps.each hpieces)
    obtain ⟨loc, loc', e, he, hprogram⟩ := Program.ofTokens_expression hrenders (by simp [hkind])
      (by simp [hkind]) (by simp [hkind]) (Prod.mk.inj hstop).1 file
    rw [Expr.unlocated, unlocatedParts_pieces] at he
    -- Names are computed one level below the template that they are in.
    have hvalue (ev : Evaluator) (k : Nat) (m : Machine) (value : String → Value)
        (hbound : ∀ x, .name x ∈ ps → m.scopes.lookup? x m.context.scope = some (value x)) :
        Eval.expression (ev.deeper k) e m =
          .ok (.string (String.join (ps.map (Piece.shown m.heap value)))) m :=
      Eval.expression_template (fun x hx _ => Eval.expression_ident ev (hbound x hx)) he
    refine ⟨⟨_, loc, loc', e, htokens, by simp [ht, hpieces, hclosing, hstop], hprogram,
      he, fun m value hbound => ?_⟩, fun m value hroom hbound => ?_⟩
    · obtain ⟨n, hfull⟩ := Evaluator.exists_full
      rw [hfull]
      exact hvalue _ _ m value hbound
    · refine Machine.runSource_expression htokens (hprogram _) hroom
        fun ev k m' hheap hscopes hscope => ?_
      rw [← hheap]
      exact hvalue ev k m' value fun x hx => by rw [hscopes, hscope, hbound x hx]

/-- Quotes, a dollar sign before a brace, and a name that stands twice. -/
theorem literals_round_trip_mixed :
    let ps : List Piece := [.text "$\x7bx\x7d ", .name "x", .name "x", .text "\\é\x60"]
    let m : Machine :=
      { scopes := ⟨#[{ vars := (OrderedMap.empty).insert "x" ⟨.bool true, .let⟩ }]⟩ }
    Piece.Proper ps ∧ m.context.calls.hasRoom = true ∧
    (∀ x, .name x ∈ ps → m.scopes.lookup? x Scopes.root = some (.bool true)) ∧
    (∃ m', m.runSource (stringLiteral "\"\\n\n") "main" = (.value (.string "\"\\n\n"), m')) ∧
    templateLiteral ps = "\x60\\$\x7bx\x7d $\x7bx\x7d$\x7bx\x7d\\\\é\\\x60\x60" ∧
    ∃ m', m.runSource (templateLiteral ps) "main" =
      (.value (.string "$\x7bx\x7d truetrue\\é\x60"), m') := by
  intro ps m
  have hproper : Piece.Proper ps := by
    refine ⟨?_, by decide⟩
    simp only [ps, List.forall_mem_cons, Piece.IsProper]
    exact ⟨by decide, by decide, by decide, by decide, List.forall_mem_nil _⟩
  have hbound : ∀ x, .name x ∈ ps → m.scopes.lookup? x Scopes.root = some (.bool true) := by
    intro x hx
    obtain rfl : x = "x" := by simpa [ps] using hx
    have hget : (m.scopes.get Scopes.root).vars.get? "x" = some ⟨.bool true, .let⟩ := by
      simp [m, Scopes.get, Scopes.root, OrderedMap.get?_insert]
    rw [Scopes.lookup?, Scopes.find?, hget]
    rfl
  have htemplate := (literals_round_trip.2 ps "main" hproper).2 m (fun _ => .bool true) rfl hbound
  exact ⟨hproper, rfl, hbound, (literals_round_trip.1 _ "main").2 m rfl, by decide, htemplate⟩

end ScriptLang
