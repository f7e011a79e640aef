import Mathlib
import ScriptLang.Proofs.AttributionRuns
import ScriptLang.Proofs.InitialMachine
import ScriptLang.Proofs.ParsedFiles

/-!
# Errors quote their lines

The place of an error has come a long way when it is looked up: from a token into the syntax tree,
from there through calls, functions of the library and imports into the error, and at last to the
text that is on record under the name of the file. That it is the right line rests on the file
having one text all the time, so this is said of runs whose files do not change.

* `Diagnostic.Quotes` — the error is at a token of a text and quotes the line of that token.
* `Question.ReadsOther` — an import is about to read a text that a file does not have. Runs that
  never take such a step are those whose files do not change; where the host has the same texts at
  every step (`Host.Gives`), a run takes none.
* `Attribution.quoting` — places are those of tokens of the texts on record, and every text on
  record is that of its file.
* `errors_quote_their_line` is the main statement.
-/

namespace ScriptLang

/-- **Quotes.** The error is at a token of a text, and quotes the line of the text with its number,
without a carriage return at the end. -/
structure Diagnostic.Quotes (d : Diagnostic) (text : String) : Prop where
  token : d.location.OfToken text
  positive : 0 < d.location.line
  line : ∃ line, (Lines.split text.toList)[d.location.line - 1]? = some line ∧
    d.snippet = some (String.ofList (Lines.dropReturn line))

/-- **Reads other.** The step is an import that is about to read a file with another text than
`files` says. -/
def Question.ReadsOther (files : String → Option String) (q : Question) (m : Machine) : Prop :=
  ∃ loc path name file text, q = .stmt (.load loc path name) ∧
    m.fetched? path loc = some (file, text) ∧ files file ≠ some text

/-- **Gives.** The texts of the host are those that `files` says, now and after any number of
questions. -/
def Host.Gives (files : String → Option String) (h : Host) : Prop :=
  ∀ n path text, (asked^[n] h).read path = .ok text → files path = some text

theorem Machine.Probes.host {m m' : Machine} (h : m.Probes m') :
    ∃ n, m'.host = Host.asked^[n] m.host := by
  induction h with
  | refl m => exact ⟨0, rfl⟩
  | step path _ ih =>
    obtain ⟨n, hn⟩ := ih
    exact ⟨n + 1, hn⟩

/-- What an import reads is what the host has, after the search for the file. -/
theorem Host.Gives.fetched {files : String → Option String} {m : Machine} (h : m.host.Gives files)
    {path : String} {loc : Location} {file text : String}
    (hf : m.fetched? path loc = some (file, text)) : files file = some text := by
  obtain ⟨r, m₁, hs, hr⟩ := Eval.resolveImport_spec path loc m
  obtain ⟨n, hn⟩ := hs.probes.host
  unfold Machine.fetched? at hf
  rw [hr] at hf
  -- A standard module is no file, and a search may find none.
  cases hname : StandardModule.ofName? path with
  | some s => rw [hname] at hf; cases hf
  | none =>
    rw [hname] at hf
    cases hfound : r.found with
    | none => rw [hfound] at hf; cases hf
    | some place =>
      rw [hfound] at hf
      dsimp only at hf
      split at hf
      · cases hread : m₁.host.read place with
        | error e =>
          rw [Machine.host_after, hread] at hf
          cases hf
        | ok text' =>
          rw [Machine.host_after, hread] at hf
          cases hf
          exact h n file text (hn ▸ hread)
      · cases hf

/-- **Files that do not change.** If the host has the same texts at every step of a run, no import
reads another one. -/
theorem Machine.never_readsOther_of_gives {files : String → Option String} {m : Machine}
    {p : Program} {file : String} (h : m.Never (fun _ _ m => ¬ m.host.Gives files) p file) :
    m.Never (fun _ => Question.ReadsOther files) p file := by
  refine h.mono ?_
  rintro _ _ m ⟨loc, path, name, file, text, -, hfetched, hother⟩ hgives
  exact hother (hgives.fetched hfetched)

theorem SourceMap.get?_add_of_ne (m : SourceMap) {file other : String} (text : String)
    (h : other ≠ file) : (m.add file text).get? other = m.get? other := by
  have hfirst : (file == other) = false := by simpa using fun h' => h h'.symm
  unfold add get?
  rw [List.find?_cons, hfirst]
  dsimp only
  rw [List.find?_filter]
  congr 2
  funext entry
  by_cases he : entry.1 = other
  · simp [he, h]
  · simp [he]

/-! ### Texts that stay -/

/-- Every file has one text, and the places are those of tokens of the texts on record. A text comes
on record for the main file, or when the import of a file has begun. -/
def Attribution.quoting (texts : String → Option String) (main : String) : Attribution where
  reads S file text := texts file = some text ∧ (file = main ∨ file ∈ S.begun)
  places S loc := ∃ text, texts loc.file = some text ∧ S.texts.get? loc.file = some text ∧
    (loc.file = main ∨ loc.file ∈ S.begun) ∧ loc.OfToken text
  add := by
    rintro S file text loc ⟨hfile, -⟩ ⟨text', hfile', hget, hmain, htoken⟩
    refine ⟨text', hfile', ?_, hmain, htoken⟩
    by_cases hne : loc.file = file
    · -- The file is read once more, and has the text that it had.
      rw [hne, hfile] at hfile'
      rw [hne, ← Option.some.inj hfile']
      exact SourceMap.get?_add_self ..
    · exact (SourceMap.get?_add_of_ne _ _ hne).trans hget
  begin := by
    rintro S file loc ⟨text, hfile, hget, hmain, htoken⟩
    exact ⟨text, hfile, hget, hmain.imp_right (List.mem_cons_of_mem _), htoken⟩
  program := by
    rintro S file text p ⟨hfile, hmain⟩ hp
    refine (Program.located_of_ofSource hp).mono ?_
    rintro loc ⟨rfl, htoken⟩
    exact ⟨text, hfile, SourceMap.get?_add_self .., hmain, htoken⟩

/-- An evaluator that halts before it would read another text. -/
theorem Attribution.quoting_evaluates {files texts : String → Option String} {main : String}
    (htexts : ∀ file text, files file = some text → texts file = some text) (r : Halt) (n : Nat) :
    (quoting texts main).Evaluates
      (Evaluator.watching (fun _ => Question.ReadsOther files) r n) := by
  refine evaluates_watching (A := quoting texts main)
    (fun {n loc path name m file text} hw hf => ?_) n
  refine ⟨htexts file text ?_, .inr (List.mem_cons_self ..)⟩
  by_contra hne
  exact hw ⟨loc, path, name, file, text, rfl, hf, hne⟩

/-- A machine that has the text of an error's file quotes the line. -/
theorem Machine.complete_quotes {m : Machine} {d : Diagnostic} {text : String}
    (hs : d.snippet = none) (hget : m.sources.get? d.location.file = some text) :
    (m.complete d).snippet = Lines.line? text d.location.line := by
  unfold complete
  simp only [CallStack.snippet_attach, hs, Option.isSome_none, Bool.false_eq_true, if_false,
    CallStack.location_attach, hget]
  rw [Diagnostic.withSource, CallStack.location_attach]

/-- The line of a token is in the text. -/
theorem Location.OfToken.line {text : String} {loc : Location} (h : loc.OfToken text) :
    0 < loc.line ∧ ∃ line, (Lines.split text.toList)[loc.line - 1]? = some line ∧
      Lines.line? text loc.line = some (String.ofList (Lines.dropReturn line)) := by
  obtain ⟨tokens, t, htokens, ht, hloc⟩ := h
  have hline : t.line.toNat = loc.line := congrArg Location.line hloc
  rw [← hline]
  exact Lexer.line?_of_tokenize htokens ht

namespace Machine

variable {m m' : Machine} {p : Program} {source file : String} {d : Diagnostic}

/-- A run that ends with an error ends with that of the program, unless it broke down. -/
theorem interpret_of_runSource (hp : Program.ofSource source file = .ok p)
    (h : m.runSource source file = (.error d, m')) (hcode : d.code ≠ "INT001") :
    interpret p file (m.addSource file source) = .error d m' := by
  unfold runSource at h
  rw [hp] at h
  change finish file (interpret p file (m.addSource file source)) = _ at h
  -- A program that has been left, or has run to its end, gives no error.
  cases e : interpret p file (m.addSource file source) with
  | ok v m₁ => rw [e] at h; cases h
  | error d₁ m₁ =>
    rw [e] at h
    cases h
    rfl
  | halt r m₁ =>
    rw [e] at h
    cases r with
    | left code => cases h
    | _ => cases h; exact absurd rfl hcode

/-- **The run of a program.** Its error quotes the line of a token of the main file, or of a file
whose import has begun. -/
theorem quotes_of_interpret {files texts : String → Option String}
    (htexts : ∀ file text, files file = some text → texts file = some text)
    (hfile : texts file = some source) (hsource : Program.ofSource source file = .ok p)
    (hm : ∀ T, Among T m)
    (hfiles : (m.addSource file source).Never (fun _ => Question.ReadsOther files) p file)
    (h : interpret p file (m.addSource file source) = .error d m') (hd : d.category = .runtime) :
    ∃ text, texts d.location.file = some text ∧
      (d.location.file = file ∨ d.location.file ∈ begunFiles m'.log) ∧ d.Quotes text := by
  have hp : p.Located
      ((Attribution.quoting texts file).places (m.addSource file source).loaded) := by
    refine (Program.located_of_ofSource hsource).mono ?_
    rintro loc ⟨rfl, htoken⟩
    exact ⟨source, hfile, SourceMap.get?_add_self .., .inl rfl, htoken⟩
  -- A run that never reads another text is the same under a watch for that.
  rw [← hfiles .internal] at h
  obtain ⟨d₀, he⟩ := Attribution.escapes_interpretOver
    (Attribution.quoting_evaluates htexts .internal Evaluator.height) hp (hm _) h
  have hd₀ : d₀.category = .runtime := by
    rw [he.completed] at hd
    simpa using hd
  obtain ⟨⟨text, htext, hget, hbegun, htoken⟩, hsnippet⟩ := he.explains.place hd₀
  obtain ⟨hpos, line, hline, hread⟩ := htoken.line
  have hquote := complete_quotes hsnippet hget
  have hlocation := m'.location_complete d₀
  rw [he.completed, hlocation]
  refine ⟨text, htext, hbegun, ?_, ?_, line, ?_, ?_⟩
  · rwa [hlocation]
  · rwa [hlocation]
  · rwa [hlocation]
  · rw [hquote, hread]

end Machine

/-- **Errors quote their lines.** On any host, let a text be run as a file while the files that it
imports do not change: whenever an import reads one, it has the text that `files` says, and if the
main file is imported as well, that is the text that is run. Suppose that the run ends with an error
of the running program, and did not break down. Then the error is at a token of the main file or of
a file whose import has begun in the run, and it quotes the line of that file with its number. -/
theorem errors_quote_their_line (setup : Machine.Setup) {source file : String}
    {files : String → Option String} (hmain : ∀ text, files file = some text → text = source)
    (hfiles : ∀ p, Program.ofSource source file = .ok p →
      ((Machine.initial setup).addSource file source).Never
        (fun _ => Question.ReadsOther files) p file)
    {d : Diagnostic} {m : Machine}
    (hrun : (Machine.initial setup).runSource source file = (.error d, m))
    (hd : d.category = .runtime) (hcode : d.code ≠ "INT001") :
    ∃ text, d.Quotes text ∧
      (d.location.file = file ∧ text = source ∨
        d.location.file ∈ begunFiles m.log ∧ files d.location.file = some text) := by
  cases hp : Program.ofSource source file with
  | error d' =>
    -- The text is no program, so the error is not one of a running program.
    unfold Machine.runSource at hrun
    rw [hp] at hrun
    cases hrun
    exact absurd hd (Program.written_of_ofSource hp).1
  | ok p =>
    -- The main file has the text that is run, whether or not it is a file of the host.
    let texts (path : String) : Option String := if path = file then some source else files path
    have htexts (path text : String) (h : files path = some text) : texts path = some text := by
      by_cases hpath : path = file
      · obtain rfl := hmain text (hpath ▸ h)
        exact if_pos hpath
      · exact (if_neg hpath).trans h
    obtain ⟨text, htext, hbegun, hquotes⟩ := Machine.quotes_of_interpret htexts (if_pos rfl) hp
      (fun T => Machine.among_initial T setup) (hfiles p hp)
      (Machine.interpret_of_runSource hp hrun hcode) hd
    refine ⟨text, hquotes, ?_⟩
    by_cases hfile : d.location.file = file
    · have htext' : some source = some text := (if_pos hfile).symm.trans htext
      exact .inl ⟨hfile, (Option.some.inj htext').symm⟩
    · have htext' : files d.location.file = some text := (if_neg hfile).symm.trans htext
      exact .inr ⟨hbegun.resolve_left hfile, htext'⟩

/-! ### A program that only breaks, out of no loop -/

namespace Machine

/-- It fails there, over any evaluator that knows the statement. -/
theorem interpretOver_break {ev : Evaluator} {loc : Location}
    (hev : ev.stmt (.breakTo loc none) = pure (.breakTo ⟨none, loc⟩)) (place : Location)
    (file : String) :
    interpretOver ev ⟨[.breakTo loc none], place⟩ file =
      completed (Eval.inCall ⟨rootName, place⟩ (Eval.inFile Scopes.root file
        (Eval.fail (.strayJump "break" none) loc))) := by
  have hrun : Eval.runStatements ev [.breakTo loc none] = pure (.breakTo ⟨none, loc⟩) := by
    change (ev.stmt (.breakTo loc none) >>= _) = _
    rw [hev]
    rfl
  unfold interpretOver
  dsimp only
  rw [hrun]
  rfl

/-- Every watched evaluator knows it, if the watch is for other statements. -/
theorem watching_break {W : Nat → Question → Machine → Prop} {loc : Location}
    (hW : ∀ n m, ¬ W n (.stmt (.breakTo loc none)) m) (r : Halt) (n : Nat) :
    (Evaluator.watching W r (n + 1)).stmt (.breakTo loc none) = pure (.breakTo ⟨none, loc⟩) :=
  funext fun m => Eval.haltingIn_of_not (hW (n + 1) m)

theorem ofBound_break (loc : Location) (n : Nat) :
    (Evaluator.ofBound (n + 1)).stmt (.breakTo loc none) = pure (.breakTo ⟨none, loc⟩) := by
  rw [← Evaluator.watching_nothing .internal]
  exact watching_break (fun _ _ => id) ..

theorem never_readsOther_break (files : String → Option String) (m : Machine) (loc place : Location)
    (file : String) :
    m.Never (fun _ => Question.ReadsOther files) ⟨[.breakTo loc none], place⟩ file := by
  have hW (n : Nat) (m : Machine) : ¬ Question.ReadsOther files (.stmt (.breakTo loc none)) m := by
    rintro ⟨_, _, _, _, _, ⟨⟩, -⟩
  intro r
  rw [interpret_eq]
  change interpretOver (Evaluator.watching _ r (Nat.pow 2 60 - 2 + 1)) _ _ _ =
    interpretOver (Evaluator.ofBound (Nat.pow 2 60 - 2 + 1)) _ _ _
  rw [interpretOver_break (watching_break hW r _), interpretOver_break (ofBound_break loc _)]

/-- From the context that programs start in, it fails. -/
theorem interpret_break {m : Machine} (hc : m.context = { calls := .ofLimit (some 10000) })
    (loc place : Location) (file : String) :
    ∃ d m', interpret ⟨[.breakTo loc none], place⟩ file m = .error d m' ∧ d.category = .runtime ∧
      d.code = "CTRL002" ∧ d.location = loc := by
  change ∃ d m', interpretOver (Evaluator.ofBound (Nat.pow 2 60 - 2 + 1)) _ _ _ = .error d m' ∧ _
  rw [interpretOver_break (ofBound_break loc _)]
  obtain ⟨⟩ := m
  dsimp only at hc
  subst hc
  exact ⟨_, _, rfl, by rw [category_complete]; rfl, by rw [code_complete]; rfl,
    by rw [location_complete]; rfl⟩

end Machine

theorem errors_quote_their_line_break :
    ∃ d m, (Machine.initial {}).runSource "\nbreak" "main.mimo" = (.error d, m) ∧
      d.location.line = 2 ∧ d.snippet = some "break" := by
  let loc : Location := ⟨"main.mimo", 2, 1, ⟨1, 6⟩⟩
  have hp : Program.ofSource "\nbreak" "main.mimo" = .ok ⟨[.breakTo loc none], loc⟩ := by cbv
  obtain ⟨d, m, h, hd, hcode, hloc⟩ := Machine.interpret_break
    (m := (Machine.initial {}).addSource "main.mimo" "\nbreak") (Machine.initial_settled {}).1
    loc loc "main.mimo"
  have hrun : (Machine.initial {}).runSource "\nbreak" "main.mimo" = (.error d, m) := by
    unfold Machine.runSource
    rw [hp]
    change Machine.finish "main.mimo" (Machine.interpret _ _ _) = _
    rw [h]
    rfl
  -- There are no files.
  let files : String → Option String := fun _ => none
  have hfiles : ∀ p, Program.ofSource "\nbreak" "main.mimo" = .ok p →
      ((Machine.initial {}).addSource "main.mimo" "\nbreak").Never
        (fun _ => Question.ReadsOther files) p "main.mimo" := by
    intro p hp'
    obtain rfl := Except.ok.inj (hp.symm.trans hp')
    exact Machine.never_readsOther_break files _ loc loc _
  obtain ⟨text, hquotes, htext⟩ := errors_quote_their_line {} (by rintro _ ⟨⟩) hfiles hrun hd
    (by rw [hcode]; decide)
  obtain ⟨-, rfl⟩ : d.location.file = "main.mimo" ∧ text = "\nbreak" :=
    htext.resolve_right (by rintro ⟨-, ⟨⟩⟩)
  obtain ⟨line, hline, hsnippet⟩ := hquotes.line
  have hnumber : d.location.line = 2 := by rw [hloc]
  rw [hnumber] at hline
  obtain rfl : ['b', 'r', 'e', 'a', 'k'] = line := Option.some.inj hline
  exact ⟨d, m, hrun, hnumber, hsnippet⟩

end ScriptLang
