import ScriptLang.Proofs.Imports
import ScriptLang.Proofs.InitialMachine
import ScriptLang.Proofs.ParsedFiles

/-!
# Where imports look

An import looks for its file from the directory of the *current* file, which is the file whose
statements run. A call changes the current scope and not the current file. So an import statement in
the body of a function looks from the file that the function is called from, wherever its own file
is; only outside of functions are the two files the same.

* `currentFile` reads the current file off what is under way: calls do not count.
* `JournalEntry.LooksFrom` says of the entry of a search which places it went through. The places of
  the file that the statement stands in are the ones tried if and only if they are those of the
  current file, as far as the search went (`JournalEntry.LooksFrom.exactly`).
* `imports_look_from_current_file` is the main statement, for every search of every run.

The proof is the walk over the evaluator for a discipline that ties the current file to what is
under way, and the statements that run outside of functions to their file (`Stmt.WrittenIn`).
-/

namespace ScriptLang

/-- The file whose statements run, given what is under way; before any file runs, the name of a
machine's first context. -/
def currentFile : List Activity → String
  | [] => "<main>"
  | .file path :: _ => path
  | .call _ :: rest => currentFile rest

/-- **A search looks from the current file.** The paths in `reported` are those that the host
reported before. -/
structure JournalEntry.LooksFrom (h : PathRules) (reported : List String) (e : JournalEntry)
    (loc : Location) (path : String) (tried : List String) : Prop where
  current : e.file = currentFile e.within
  /-- The places tried are those from the current file, -/
  places : tried <+: h.importPlaces e.file path
  nonempty : tried ≠ []
  /-- all of them, unless the host reported the last one tried. -/
  complete : tried = h.importPlaces e.file path ∨
    ∃ place, tried.getLast? = some place ∧ place ∈ reported
  /-- Outside of functions the current file is the file of the statement. -/
  outside : ∀ file, e.within.head? = some (.file file) → loc.file = e.file
  /-- The places of the statement's file are tried exactly if they are those of the current file. -/
  exactly : tried <+: h.importPlaces loc.file path ↔
    (h.importPlaces loc.file path).take tried.length =
      (h.importPlaces e.file path).take tried.length

/-- Every search in the journal looked from the file that was current. -/
def ImportsLook (h : PathRules) : List JournalEntry → Prop
  | [] => True
  | e :: j =>
    (∀ loc path tried, e.event = .sought loc path tried →
      e.LooksFrom h (reportedPaths j) loc path tried) ∧ ImportsLook h j

/-- Of two lists that begin with the same list, as much is the same. -/
private theorem isPrefix_iff_take_eq {α : Type} {xs ys zs : List α} (h : xs <+: ys) :
    xs <+: zs ↔ zs.take xs.length = ys.take xs.length := by
  rw [List.prefix_iff_eq_take, ← List.prefix_iff_eq_take.mp h]
  exact eq_comm

/-! ### The current file -/

namespace Context

/-- The file of the context is the one whose statements run. -/
def Located (c : Context) : Prop := c.file = currentFile c.within.val

theorem Enters.located {c c' : Context} {i : Option ScopeId} (h : c.Enters i c')
    (hc : c.Located) : c'.Located := by
  cases h with
  | scope id => exact hc
  | file id file => simp [Located, enterFile, currentFile]
  | function name => simpa [Located, enterFunction, currentFile] using hc
  | call calls => exact hc

end Context

namespace Machine

/-- The invariant: every search so far looked from the current file. -/
structure Looks (h : PathRules) (m : Machine) : Prop where
  paths : m.host.paths = h
  located : m.context.Located
  log : ImportsLook h m.log

variable {h : PathRules} {m m' : Machine} {e : Event}

theorem Looks.congr (hm : m.Looks h) (hp : m'.host.paths = m.host.paths)
    (hc : m'.context.Located) (hj : m'.journal = m.journal) : m'.Looks h :=
  ⟨hp.trans hm.paths, hc, log_congr hj ▸ hm.log⟩

/-- Any event but a search. -/
theorem Looks.after (hm : m.Looks h) (he : ∀ loc path tried, e ≠ .sought loc path tried) :
    (m.after e).Looks h := by
  refine ⟨hm.paths, hm.located, ?_⟩
  rw [log_after]
  exact ⟨fun loc path tried heq => absurd heq (he loc path tried), hm.log⟩

/-- A search from the current file, by a statement of that file or in a call. -/
theorem Looks.sought {loc : Location} {path : String} {tried : List String} (hm : m.Looks h)
    (hloc : ∀ file, m.context.within.val.head? = some (.file file) → loc.file = file)
    (hs : m.Sought (h.importPlaces m.context.file path) tried) (hne : tried ≠ []) :
    (m.after (.sought loc path tried)).Looks h := by
  refine ⟨hm.paths, hm.located, ?_⟩
  rw [log_after]
  refine ⟨?_, hm.log⟩
  rintro _ _ _ ⟨⟩
  -- What is left to show is that the statement stands in the current file, outside of functions.
  refine ⟨hm.located, hs.isPrefix, hne, hs.complete, fun file hf => ?_,
    isPrefix_iff_take_eq hs.isPrefix⟩
  have hcurrent : m.context.file = file := by
    rw [hm.located]
    obtain ⟨rest, hw⟩ := List.head?_eq_some_iff.mp hf
    change m.context.within.val = _ at hw
    rw [hw]
    rfl
  exact (hloc file hf).trans hcurrent.symm

end Machine

/-! ### The discipline -/

namespace Discipline

/-- The discipline of places. Outside of functions, the statements of a file run in that file. -/
def places (h : PathRules) : Discipline where
  keeps _ m m' := m.Looks h → m'.Looks h
  halts _ m m' := m.Looks h → ImportsLook h m'.log
  fits c s := ∀ file, c.within.val.head? = some (.file file) → s.WrittenIn file

variable {h : PathRules}

theorem places_oblivious : (places h).Oblivious where
  alike ha hm := hm.congr ha.paths (ha.context ▸ hm.located) ha.journal
  trans h₁ h₂ hm := h₂ (h₁ hm)
  widen hk := hk
  write _ _ hm := hm.congr rfl hm.located rfl
  child hk hm := hk (hm.congr rfl hm.located rfl)
  moves he := by
    refine ⟨?_, ?_⟩
    · rintro m m' rfl hm' hk hm
      exact (hk (hm.congr rfl (he.located hm.located) rfl)).congr rfl hm.located rfl
    · rintro m m' rfl hk hm
      exact hk (hm.congr rfl (he.located hm.located) rfl)
  alike_halts ha hm := Machine.log_congr ha.journal ▸ hm.log
  keeps_halts h₁ h₂ hm := h₂ (h₁ hm)
  widen_halts h := h
  child_halts hk hm := hk (hm.congr rfl hm.located rfl)
  part hs hp file hf := (hs file hf).part hp
  atScope hs := hs
  -- In a function nothing is asked of statements.
  body := by
    intro c s name id calls file hf
    simp [Context.withCalls, Context.atScope, Context.enterFunction] at hf
  -- A file runs as the file that its statements were read as.
  program hp s hs file hf := by
    simp only [Context.enterFile, Ghost.val_map, List.head?_cons, Option.some.injEq,
      Activity.file.injEq] at hf
    exact hf ▸ Program.writtenIn_of_ofSource hp s hs
  sources _ hm := hm.congr rfl hm.located rfl
  probed place hm :=
    Machine.Looks.after (hm.congr (Host.paths_asked _) hm.located rfl) (by simp)
  sought hs hplaces hm := by
    rw [hm.paths] at hplaces
    refine hm.sought (fun file hf => (hs file hf).load) hplaces ?_
    exact hplaces.nonempty (by simp [PathRules.importPlaces])
  importing c path := by
    refine ⟨?_, ?_⟩
    · rintro m m' rfl hm' hk hm
      exact (hk (hm.congr rfl hm.located rfl)).congr rfl hm.located rfl
    · rintro m m' rfl hk hm
      exact hk (hm.congr rfl hm.located rfl)
  modules _ hm := hm.congr rfl hm.located rfl
  note he hm := hm.after he

end Discipline

/-! ### Runs -/

namespace Machine

theorem looks_initial (setup : Setup) : (initial setup).Looks setup.host.paths := by
  obtain ⟨hc, -, hp, hj⟩ := initial_settled setup
  refine ⟨hp, ?_, hj ▸ trivial⟩
  rw [hc, Context.Located, Ghost.val_of]
  rfl

theorem finish_machine (file : String) (o : Outcome Value) : (finish file o).2 = o.machine := by
  cases o with
  | ok v m => rfl
  | error d m => rfl
  | halt r m => cases r <;> rfl

/-- A program whose statements carry their file, run as that file. -/
theorem importsLook_interpret {h : PathRules} {m : Machine} {p : Program} {file : String}
    (hm : m.Looks h) (hp : ∀ s ∈ p.statements, s.WrittenIn file) :
    ImportsLook h (interpret p file m).machine.log := by
  have hO := Discipline.places_oblivious (h := h)
  have hx : (Discipline.places h).Obeys m.context (some Scopes.root) (interpret p file) := by
    refine Discipline.obeys_interpret hO.toLawful hO.imports fun calls s hs file' hf => ?_
    simp only [Context.enterFile, Ghost.val_map, List.head?_cons, Option.some.injEq,
      Activity.file.injEq] at hf
    exact hf ▸ hp s hs
  have hends := hx.ends m rfl
  cases e : interpret p file m with
  | ok v m' => rw [e] at hends; exact (hends.2 hm).log
  | error d m' => rw [e] at hends; exact (hends.2 hm).log
  | halt r m' => rw [e] at hends; exact hends hm

end Machine

/-- **Imports look from the current file.** In every run of every source on every host, each import
statement of a file searched the places from the directory of the current file. Outside of functions
that is the file of the statement; in a function it is the file whose statements made the call. -/
theorem imports_look_from_current_file (setup : Machine.Setup) (source file : String) :
    ImportsLook setup.host.paths ((Machine.initial setup).runSource source file).2.log := by
  have hm := Machine.looks_initial setup
  unfold Machine.runSource
  split
  · exact hm.log
  · rename_i p hp
    rw [Machine.run, Machine.finish_machine]
    exact Machine.importsLook_interpret (hm.congr rfl hm.located rfl)
      (Program.writtenIn_of_ofSource hp)

end ScriptLang
