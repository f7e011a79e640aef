import ScriptLang.Proofs.RelaidTokens
import ScriptLang.Proofs.SpansStatement

/-!
# Locations are those of tokens

The locations of a program come from its tokens, and those of a construct from the tokens that it is
made of. A binary operation has the location of its operator, a member that of its name, an index
that of its bracket, a pipe that of its mark; statements have that of their first word, also where
that is the word that exports. `Construct.Occupies` has all of these, and `locations_of_tokens` puts
together what it says of a program, of every expression and statement that is read on the way, and
of errors. Each token is in a file of its own, which its location names; the file of the parser is
that of the `eof` token of an empty list.
-/

namespace ScriptLang

open Construct

namespace Cursor

/-- **Located.** The construct is made of tokens before the first `eof` token, and its location is
that of one of them. -/
def Locates (c : Cursor) (f : Construct) : Prop :=
  ∃ i j, j ≤ c.stop ∧ Occupies c.place f i j ∧
    ∀ loc, f.location? = some loc →
      ∃ k t, i ≤ k ∧ k < j ∧ c.tokens[k]? = some t ∧ loc = t.location

end Cursor

variable {b : Input}

/-- What lies before the first `eof` token is located. -/
theorem Input.locates {f : Construct} {i j : Nat} (hj : j ≤ b.stop) (h : Occupies b.place f i j) :
    b.Locates f := by
  refine ⟨i, j, hj, h, fun loc hloc => ?_⟩
  obtain ⟨k, hik, hkj, rfl⟩ := h.location hloc
  exact ⟨k, b.token k, hik, hkj, Input.getElem?_token (by omega), rfl⟩

/-- What reads a construct from a place reads the tokens that it is made of. -/
theorem Parser.Spans.reads {α : Type} {x : Parser α} {f : α → Construct} {i : Nat}
    (hx : Spans b i x fun j a => Occupies b.place (f a) i j) (hi : i ≤ b.stop) {a : α} {c : Cursor}
    (h : x (b.movedTo i) = .ok (a, c)) :
    ∃ j ≤ b.stop, c = b.movedTo j ∧ Occupies b.place (f a) i j ∧ b.Locates (f a) := by
  have hlands := hx hi
  rw [h] at hlands
  obtain ⟨j, -, hj, hc, hocc⟩ := hlands
  exact ⟨j, hj, hc, hocc, Input.locates hj hocc⟩

/-- **Locations are those of tokens.** Whatever the tokens are, and wherever each of them is:

* A program has the location of the first token, and is made of the tokens before the first `eof`
  token. Every expression, statement, case and function in it, at every depth, has the location of a
  token that it is made of.
* An expression or a statement that is read from any place, at any depth of the grammar, is made of
  exactly the tokens that reading it consumes, and has the location of one of these.
* An error is at a token that has been consumed or that the cursor is on. -/
theorem locations_of_tokens (platform : Platform) (tokens : List Token) (file : String) :
    let start := Cursor.ofTokens platform tokens file
    (∀ p c, Program.parse platform tokens file = .ok (p, c) →
      (∃ t, start.tokens[0]? = some t ∧ p.location = t.location) ∧
      Occupies start.place (.stmts p.statements) 0 start.stop ∧ ∀ f, p.Has f → start.Locates f) ∧
    (∀ i ≤ start.stop, ∀ depth c,
      (∀ e, (Grammar.ofBound depth).expression (start.movedTo i) = .ok (e, c) →
        ∃ j ≤ start.stop, c = start.movedTo j ∧ Occupies start.place (.expr e) i j ∧
          start.Locates (.expr e)) ∧
      ∀ s, (Grammar.ofBound depth).statement (start.movedTo i) = .ok (s, c) →
        ∃ j ≤ start.stop, c = start.movedTo j ∧ Occupies start.place (.stmt s) i j ∧
          start.Locates (.stmt s)) ∧
    ∀ source d, Program.parseOn platform tokens file source = .error d →
      ∃ fault t consumed, Program.parse platform tokens file = .error (.fault fault t consumed) ∧
        consumed.val ≤ start.stop ∧ (∃ n ≤ consumed.val, start.tokens[n]? = some t) ∧
        d.location = t.location := by
  intro start
  have hlays (depth : Nat) : (Grammar.ofBound depth).Lays (Input.ofTokens platform tokens file) :=
    Grammar.lays_ofBound depth
  refine ⟨fun p c h => ?_, fun i hi depth c => ⟨fun e h => ?_, fun s h => ?_⟩, fun source d h => ?_⟩
  · obtain ⟨hlocation, hbody⟩ := Program.occupies_parse h
    refine ⟨⟨_, Input.getElem?_token (b := Input.ofTokens platform tokens file) (Nat.zero_le _),
      hlocation⟩, hbody, fun f hf => ?_⟩
    obtain ⟨i, j, -, hj, hocc⟩ := hbody.has hf
    exact Input.locates (b := Input.ofTokens platform tokens file) hj hocc
  · exact ((hlays depth).expression i).reads hi h
  · exact ((hlays depth).statement i).reads hi h
  · unfold Program.parseOn at h
    split at h
    case h_2 fault t consumed hparse =>
      cases h
      obtain ⟨hstop, hn⟩ := Program.place_of_parse hparse
      exact ⟨fault, t, consumed, hparse, hstop, hn,
        (Program.report_fault source fault t).2.2.2⟩
    -- Nothing else that comes of the tokens is an error.
    all_goals cases h

/-- A pipe over two files is read and everything in it is located; a word that stands alone is an
error at one of the two tokens, the word or the `eof` token that is added. -/
theorem locations_of_tokens_pipe :
    let pipe : List Token := [⟨.identifier, "f", .nowhere, 1, 1, "b"⟩,
      ⟨.operator, "|>", .nowhere, 1, 3, "b"⟩, ⟨.identifier, "g", .nowhere, 1, 6, "c"⟩]
    let word : List Token := [⟨.keyword, "show", .nowhere, 1, 1, "b"⟩]
    (∃ p c, Program.parse .ample pipe "a" = .ok (p, c) ∧
      ∀ f, p.Has f → (Cursor.ofTokens .ample pipe "a").Locates f) ∧
    ∃ d, Program.parseOn .ample word "a" none = .error d ∧
      ∃ (n : Nat) (t : Token), (Cursor.ofTokens .ample word "a").tokens[n]? = some t ∧
        d.location = t.location := by
  refine ⟨⟨_, _, rfl, ((locations_of_tokens _ _ _).1 _ _ rfl).2.2⟩, ?_⟩
  have hparse : ∃ d, Program.parseOn .ample [⟨.keyword, "show", .nowhere, 1, 1, "b"⟩] "a" none =
      .error d := ⟨_, rfl⟩
  obtain ⟨d, h⟩ := hparse
  obtain ⟨_, t, _, -, -, ⟨n, -, hn⟩, hlocation⟩ := (locations_of_tokens _ _ _).2.2 _ _ h
  exact ⟨d, h, n, t, hn, hlocation⟩

end ScriptLang
