import ScriptLang.Proofs.ParserProgress
import ScriptLang.Proofs.SmallerParts
import ScriptLang.Proofs.TokenPlaces

/-!
# Programs carry their file

The locations in the program of a text are those of its tokens, which name the file that the text
was read as.

* `Location.OfToken` and `Program.located_of_ofSource` say it of all locations in a program.
* `Stmt.WrittenIn` and `Program.writtenIn_of_ofSource` say of the import statements of a file that
  their locations name the file. What statements run as parts of themselves is included, but bodies
  of functions are left to those who call them.
-/

namespace ScriptLang

/-! ### Locations in a program -/

/-- The location is that of a token of a text, which is read as the file that the location names. -/
def Location.OfToken (text : String) (loc : Location) : Prop :=
  ∃ tokens t, Lexer.tokenize text loc.file = .ok tokens ∧ t ∈ tokens ∧ t.location = loc

namespace Lexer

/-- The tokens of a text end with an `eof` token. -/
theorem getLast?_of_tokenize {source file : String} {ts : List Token}
    (h : tokenize source file = .ok ts) : ∃ t, ts.getLast? = some t ∧ t.kind = .eof := by
  obtain ⟨read, l, l', -, -, rfl⟩ := tokenize_eq_ok_iff.mp h
  exact ⟨endToken source file, List.getLast?_concat, rfl⟩

end Lexer

/-- Nothing is added to such tokens. -/
theorem Cursor.tokens_ofTokens {platform : Platform} {tokens : List Token} {file : String}
    {t : Token} (h : tokens.getLast? = some t) (ht : t.kind = .eof) :
    (ofTokens platform tokens file).tokens = tokens.toArray := by
  simp [ofTokens, close, h, ht]

/-- The locations in the program of a text are those of its tokens. -/
theorem Program.located_of_ofSource {source file : String} {p : Program}
    (h : ofSource source file = .ok p) :
    p.Located fun loc => loc.file = file ∧ loc.OfToken source := by
  unfold ofSource at h
  cases ht : Lexer.tokenize source file with
  | error d => rw [ht] at h; cases h
  | ok tokens =>
    rw [ht] at h
    obtain ⟨c', hp⟩ := ofTokens_eq_ok_iff.mp h
    rw [parse_of_not_overflows rfl] at hp
    let start := Cursor.ofTokens .ample tokens file
    have hholds : start.reading.Holds start :=
      Cursor.holds_reading Cursor.last_ofTokens Cursor.stop_lt_size (Nat.zero_le _)
    have hparsed := advances_program (P := fun _ => True)
      (Grammar.lasts_ofBound (depthBound start.tokens.size)) (r := 0) (Nat.zero_le _) start hholds
      trivial
    rw [hp] at hparsed
    obtain ⟨-, hlocated⟩ := hparsed
    obtain ⟨last, hgetLast, hkind⟩ := Lexer.getLast?_of_tokenize ht
    refine hlocated.mono ?_
    -- The parser takes its tokens from the array of the cursor, to which no token was added.
    rintro loc ⟨t, ⟨i, -, -, hi⟩, rfl⟩
    rw [Cursor.tokens_ofTokens hgetLast hkind] at hi
    have hmem : t ∈ tokens := List.mem_of_getElem? (by simpa using hi)
    have hfile : t.location.file = file := (Lexer.beginsAt_of_tokenize ht hmem).1
    exact ⟨hfile, tokens, t, hfile.symm ▸ ht, hmem, rfl⟩

/-! ### Import statements -/

/-- The location of an import statement. -/
def Stmt.importLocation? : Stmt → Option Location
  | .load loc .. => some loc
  | _ => none

/-- The import statements in a statement have locations in the file. -/
inductive Stmt.WrittenIn (file : String) : Stmt → Prop where
  | intro {s : Stmt} : (∀ loc, s.importLocation? = some loc → loc.file = file) →
      (∀ s' ∈ s.parts, WrittenIn file s') → WrittenIn file s

variable {file : String} {s s' : Stmt}

theorem Stmt.WrittenIn.load {loc : Location} {path name : String}
    (h : WrittenIn file (.load loc path name)) : loc.file = file := by
  cases h with
  | intro hl _ => exact hl loc rfl

theorem Stmt.WrittenIn.part (h : WrittenIn file s) (hs : s' ∈ s.parts) : WrittenIn file s' := by
  cases h with
  | intro _ hp => exact hp s' hs

/-- What a statement runs are its parts. A loop with a label is one part, and what the loop runs are
its parts then. -/
theorem Stmt.parts_eq_inside (s : Stmt) : s.parts = s.inside ∨
    ∃ body, s.parts = [body] ∧ body.importLocation? = none ∧ body.parts = s.inside := by
  cases s with
  | labeled loc label body =>
    cases body with
    | whileLoop | forEach | loop => exact .inr ⟨_, rfl, rfl, rfl⟩
    | _ => exact .inl rfl
  | _ => exact .inl rfl

theorem Stmt.importLocation?_mem_places {loc : Location} (h : s.importLocation? = some loc) :
    loc ∈ s.places := by
  cases s <;> cases h
  exact List.mem_singleton_self _

/-- A label adds nothing to what the loop under it runs. -/
theorem Stmt.WrittenIn.of_inside (hs : ∀ loc, s.importLocation? = some loc → loc.file = file)
    (hinside : ∀ s' ∈ s.inside, s'.WrittenIn file) : s.WrittenIn file := by
  refine .intro hs ?_
  obtain hparts | ⟨body, hparts, himport, hbody⟩ := s.parts_eq_inside
  · rwa [hparts]
  · rw [hparts, List.forall_mem_singleton]
    exact .intro (by simp [himport]) (by rwa [hbody])

/-- Where all locations are in the file, those of the import statements are. -/
theorem Stmt.Located.writtenIn {P : Location → Prop} {s : Stmt} (h : s.Located P)
    (hP : ∀ loc, P loc → loc.file = file) : s.WrittenIn file :=
  .of_inside (fun loc hloc => hP loc (h.place (importLocation?_mem_places hloc)))
    fun s' hs' => (h.inner hs').writtenIn hP
termination_by sizeOf s
decreasing_by exact sizeOf_inside hs'

/-- **Import statements carry their file.** The import statements of a program have locations in the
file that it was read as. -/
theorem Program.writtenIn_of_ofSource {source : String} {p : Program}
    (h : ofSource source file = .ok p) : ∀ s ∈ p.statements, s.WrittenIn file := fun s hs =>
  ((located_of_ofSource h).statements s hs).writtenIn fun _ hloc => hloc.1

end ScriptLang
