import ScriptLang.Proofs.CanonicalPaths
import ScriptLang.Proofs.Evaluator
import ScriptLang.Proofs.Imports
import ScriptLang.Proofs.InitialMachine
import ScriptLang.Proofs.Loader

/-!
# Runs of the loader

The journal of a machine is a run of the loader of `Proofs.Loader`, whatever the program does: which
files import which, which imports fail, are handled and tried again, and where import statements
stand. The loader's state is in the machine: the imports under way are part of its context, and the
record is its list of modules.

* `Machine.Loads` is the invariant. Besides the run it says that whatever is being imported has an
  absolute path, which keeps files apart from the modules of the library.
* `Discipline.loads` is the invariant as a discipline. Its obligations say that no step of the
  evaluator outside imports touches the loader; imports are treated one function after the other, up
  to `Discipline.loads_imports`.
* `Eval.refusesCircles` and `Eval.notesAnswers` say how an import ends that meets itself, and under
  which key an import that succeeds is found in the journal.
* `loader_sound` is the main statement, about programs and any number of requests on the machine
  that programs start on.
-/

namespace ScriptLang

/-- No module of the library has an absolute path for a name, so the two kinds of imports never
meet. -/
theorem StandardModule.not_isAbsolute_name (s : StandardModule) :
    Path.isAbsolute s.name = false := by
  cases s <;> decide

/-- Places of imports are absolute under the rules of POSIX systems. -/
theorem PathRules.isAbsolute_importPlaces {cwd file path place : String}
    (hcwd : Path.isAbsolute cwd = true) (h : place ∈ (posix cwd).importPlaces file path) :
    Path.isAbsolute place = true := by
  rw [importPlaces_posix hcwd] at h
  obtain ⟨name, -, rfl⟩ := List.mem_map.mp h
  exact Path.IsCanonical.isAbsolute ⟨_, Path.names_walk _, rfl⟩

namespace Eval

/-- Runs the text of a file in a scope of its own. -/
def runText (ev : Evaluator) (path source : String) : Eval (Program × ScopeId) :=
  match Program.ofSource source path with
  | .error d => raise d
  | .ok program => do
    let id ← newChildOf Scopes.root .moduleRoot
    inFile id path do
      let _ ← (← runStatements ev program.statements).atBoundary fun v => v
    return (program, id)

end Eval

namespace Machine

/-- The loader in a machine. What is pending is not part of the machine, but of the computation. -/
def loader (m : Machine) (pending : Option String) : Loader :=
  ⟨m.context.loading, m.modules, pending⟩

/-- **Loads.** The journal of the machine is a run of its loader. -/
structure Loads (cwd : String) (pending : Option String) (m : Machine) : Prop where
  reached : Loader.Reached m.log (m.loader pending)
  absolute : ∀ path ∈ m.context.loading, Path.isAbsolute path = true
  paths : m.host.paths = .posix cwd

/-- What is recorded under a name or path. -/
def known? (m : Machine) (key : String) : Option Value :=
  (m.modules.find? fun entry => entry.1 == key).map (·.2)

theorem mem_of_known {m : Machine} {key : String} {v : Value} (h : m.known? key = some v) :
    (key, v) ∈ m.modules := by
  obtain ⟨⟨key', v'⟩, hf, rfl⟩ := Option.map_eq_some_iff.mp h
  have hkey : key' = key := by simpa using List.find?_some hf
  exact hkey ▸ List.mem_of_find?_eq_some hf

theorem known_eq_none {m : Machine} {key : String} :
    m.known? key = none ↔ key ∉ m.recorded := by
  simp only [known?, recorded, Option.map_eq_none_iff, List.find?_eq_none, List.mem_map, beq_iff_eq]
  constructor
  · rintro h ⟨entry, hm, hkey⟩
    exact h entry hm hkey
  · intro h entry hm hkey
    exact h ⟨entry, hm, hkey⟩

/-- The machine in the import of a file that has just begun. -/
def importing (m : Machine) (path : String) : Machine :=
  (m.inContext (m.context.enterImport path)).after (.began path)

/-- The machine after the import of a file. -/
def afterImport (m : Machine) (path : String) : Machine :=
  (m.inContext m.context.leaveImport).after (.ended path)

/-- The machine with what an import gives on record. -/
def remembering (m : Machine) (key : String) (v : Value) : Machine :=
  { m with modules := (key, v) :: m.modules }.after (.recorded key)

/-- The machine with the text of a file that was read. -/
def reading (m : Machine) (path source : String) : Machine :=
  { m with host := m.host.asked, sources := m.sources.add path source }

/-- The import of a file, seen from the computation in it. -/
theorem inImport_eq {α : Type} (path : String) (x : Eval α) (m : Machine) :
    Eval.inImport path x m = match x (m.importing path) with
      | .ok a m' => .ok a (m'.afterImport path)
      | .error d m' => .error d (m'.afterImport path)
      | .halt r m' => .halt r m' := by
  -- Entering, leaving and the entry in the journal are each a step of their own.
  change (match (match x (m.importing path) with
    | .ok a m' => .ok a (Eval.overContext (·.leaveImport) m')
    | .error d m' => .error d (Eval.overContext (·.leaveImport) m')
    | .halt r m' => .halt r m' : Outcome α) with
    | .ok a m' => .ok a (m'.after (.ended path))
    | .error d m' => .error d (m'.after (.ended path))
    | .halt r m' => .halt r m' : Outcome α) = _
  cases x (m.importing path) <;> rfl

/-- The import of a file whose path is known, seen from the machine. -/
theorem importResolved_eq (ev : Evaluator) (path : String) (loc : Location) (m : Machine) :
    Eval.importResolved ev path loc m = match m.known? path with
      | some v => Eval.give path v m
      | none =>
        if path ∈ m.context.loading then
          Eval.fail (.circularImport m.context.loading.reverse path) loc m
        else Eval.loadFile ev path loc m := by
  change ((match m.known? path with
    | some v => Eval.give path v
    | none => do
      let loading ← Eval.look (·.context.loading)
      if loading.contains path then Eval.fail (.circularImport loading.reverse path) loc
      else Eval.loadFile ev path loc : Eval Value) m) = _
  cases m.known? path with
  | some v => rfl
  | none =>
    change (if m.context.loading.contains path then
      Eval.fail (.circularImport m.context.loading.reverse path) loc
      else Eval.loadFile ev path loc : Eval Value) m = _
    by_cases h : path ∈ m.context.loading <;> simp [h]

/-- A file that was read is run from its text. -/
theorem runFile_reading {m : Machine} {path source : String} (ev : Evaluator) (loc : Location)
    (hr : m.host.read path = .ok source) :
    Eval.runFile ev path loc m = Eval.runText ev path source (m.reading path source) := by
  have hread : Eval.ask (·.read path) m = .ok (.ok source) { m with host := m.host.asked } :=
    congrArg (Outcome.ok · _) hr
  refine (Eval.bind_of_ok hread).trans ((Eval.bind_of_ok rfl).trans ?_)
  exact Eval.bind_of_ok (n := m.reading path source) rfl

/-- A file that cannot be read. -/
theorem runFile_unreadable {m : Machine} {path : String} {failure : HostFailure} (ev : Evaluator)
    (loc : Location) (hr : m.host.read path = .error failure) :
    Eval.runFile ev path loc m =
      Eval.fail (.moduleUnreadable path failure.message) loc { m with host := m.host.asked } := by
  have hread : Eval.ask (·.read path) m = .ok (.error failure) { m with host := m.host.asked } :=
    congrArg (Outcome.ok · _) hr
  exact (Eval.bind_of_ok hread).trans rfl

namespace Loads

variable {cwd : String} {pending pending' : Option String} {m m' : Machine} {e : Event}

/-- The invariant looks at the imports under way, the record, the path rules and the journal. -/
theorem congr (h : Loads cwd pending m) (hl : m'.context.loading = m.context.loading)
    (hm : m'.modules = m.modules) (hp : m'.host.paths = m.host.paths)
    (hj : m'.journal = m.journal) : Loads cwd pending m' where
  reached := by
    rw [log_congr hj, loader, hl, hm]
    exact h.reached
  absolute := by
    rw [hl]
    exact h.absolute
  paths := hp.trans h.paths

theorem alike (h : Loads cwd pending m) (ha : m.Alike m') : Loads cwd pending m' :=
  h.congr (by rw [ha.context]) ha.modules ha.paths ha.journal

/-- A step of the loader together with its entry in the journal. -/
theorem after (h : Loads cwd pending m) (hj : m'.journal = m.journal)
    (hp : m'.host.paths = m.host.paths)
    (ha : ∀ path ∈ m'.context.loading, Path.isAbsolute path = true)
    (hs : Loader.Step m.log (m.loader pending) e (m'.loader pending')) :
    Loads cwd pending' (m'.after e) where
  reached := by
    rw [log_after, log_congr hj]
    exact .step h.reached hs rfl rfl
  absolute := ha
  paths := hp.trans h.paths

/-- An entry for a step that leaves the machine as it is. -/
theorem note (h : Loads cwd pending m)
    (hs : Loader.Step m.log (m.loader pending) e (m.loader pending')) :
    Loads cwd pending' (m.after e) :=
  h.after rfl rfl h.absolute hs

/-- Recording what an import gives, and giving it. -/
theorem remember_give {key : String} {v : Value} (h : Loads cwd pending m)
    (hl : key ∉ m.context.loading) (hr : key ∉ m.recorded)
    (hp : pending = none ∨ pending = some key) :
    Loads cwd none ((m.remembering key v).after (.gave key v)) := by
  have hm : Loads cwd none (m.remembering key v) :=
    h.after rfl rfl h.absolute (.recorded hl hr hp)
  exact hm.note (.gave List.mem_cons_self)

theorem probed (h : Loads cwd pending m) (path : String) : Loads cwd pending (m.probed path) :=
  h.after rfl (Host.paths_asked _) h.absolute .probed

end Loads

end Machine

namespace Discipline

/-- The discipline of the loader. -/
def loads (cwd : String) : Discipline where
  keeps _ m m' := m.Loads cwd none → m'.Loads cwd none
  halts _ m m' := m.Loads cwd none → ∃ l, Loader.Reached m'.log l
  fits _ _ := True

variable {cwd : String}

theorem loads_lawful : (loads cwd).Lawful where
  alike h hm := hm.alike h
  trans h h' hm := h' (h hm)
  widen h := h
  write _ _ hm := hm.congr rfl rfl rfl rfl
  child h hm := h (hm.congr rfl rfl rfl rfl)
  moves he := by
    have hl := he.loading
    refine ⟨?_, ?_⟩
    · rintro m m' rfl hm' h hm
      exact (h (hm.congr hl rfl rfl rfl)).congr (by rw [hm', hl]; rfl) rfl rfl rfl
    · rintro m m' rfl h hm
      exact h (hm.congr hl rfl rfl rfl)
  alike_halts h hm := ⟨_, Machine.log_congr h.journal ▸ hm.reached⟩
  keeps_halts h h' hm := h' (h hm)
  widen_halts h := h
  child_halts h hm := h (hm.congr rfl rfl rfl rfl)
  part _ _ := trivial
  atScope _ := trivial
  body := trivial
  program _ _ _ := trivial
  sources _ hm := hm.congr rfl rfl rfl rfl
  probed place hm := hm.probed place
  sought _ _ hm := hm.note .sought

/-! ### Imports -/

/-- As `Ends` of the discipline, where success leaves a file pending. -/
def Brings (cwd path : String) (m : Machine) : Outcome Value → Prop
  | .ok _ m' => m'.context = m.context ∧ (m.Loads cwd none → m'.Loads cwd (some path))
  | .error _ m' => m'.context = m.context ∧ (m.Loads cwd none → m'.Loads cwd none)
  | .halt _ m' => m.Loads cwd none → ∃ l, Loader.Reached m'.log l

/-- What is known of a file before its import begins. -/
structure Importable (path : String) (m : Machine) : Prop where
  reported : path ∈ reportedPaths m.log
  absolute : Path.isAbsolute path = true
  loading : path ∉ m.context.loading
  recorded : path ∉ m.recorded

section Import

variable {ev : Evaluator} {m : Machine} {path : String} {loc : Location}

/-- Giving what is recorded. -/
theorem loads_give {key : String} {v : Value} (hv : (key, v) ∈ m.modules) :
    (loads cwd).Ends none m (Eval.give key v m) :=
  ⟨rfl, fun h => h.note (.gave hv)⟩

/-- A file that ran to its end is pending. -/
theorem brings_runModule (hev : (loads cwd).Evaluates ev) (hpath : path ∈ m.context.loading) :
    Brings cwd path m (Eval.runModule ev path loc m) := by
  have hrun : (loads cwd).Obeys m.context none (Eval.runFile ev path loc) :=
    obeys_runFile loads_lawful hev path loc
  have h := hrun.ends m rfl
  change Brings cwd path m (Eval.andThen (Eval.runFile ev path loc) _ m)
  unfold Eval.andThen
  cases e : Eval.runFile ev path loc m with
  | ok r m₁ =>
    rw [e] at h
    obtain ⟨hc, hl⟩ := h
    refine ⟨hc, fun hm => ?_⟩
    have hloading : path ∈ m₁.context.loading := hc ▸ hpath
    have hm₁ : (m₁.after (.completed path)).Loads cwd (some path) :=
      (hl hm).note (.completed hloading rfl)
    exact hm₁.congr rfl rfl rfl rfl
  -- A file that fails is not pending.
  | error d m₁ => rw [e] at h; exact h
  | halt r m₁ => rw [e] at h; exact h

/-- The import of a file begins and ends one level of imports. -/
theorem brings_inImport (hev : (loads cwd).Evaluates ev)
    (hf : m.Loads cwd none → Importable path m) :
    Brings cwd path m (Eval.inImport path (Eval.runModule ev path loc) m) := by
  have hbegin (hm : m.Loads cwd none) : (m.importing path).Loads cwd none := by
    have hi := hf hm
    refine hm.after rfl rfl ?_ (.began hi.reported hi.loading hi.recorded rfl)
    intro path' hp
    rcases List.mem_cons.mp hp with rfl | hp
    · exact hi.absolute
    · exact hm.absolute path' hp
  -- Leaving the import takes the path back that entering it put in front.
  have hend {m' : Machine} {pending : Option String}
      (hc : m'.context = (m.importing path).context) (hl : m'.Loads cwd pending) :
      (m'.afterImport path).Loads cwd pending := by
    refine hl.after rfl rfl ?_ (.ended ?_)
    · intro path' hp
      exact hl.absolute path' (List.mem_of_mem_tail hp)
    · change m'.context.loading = path :: m'.context.loading.tail
      rw [hc]
      rfl
  have hcontext {m' : Machine} (hc : m'.context = (m.importing path).context) :
      (m'.afterImport path).context = m.context := by
    change m'.context.leaveImport = m.context
    rw [hc]
    rfl
  have h : Brings cwd path (m.importing path) (Eval.runModule ev path loc (m.importing path)) :=
    brings_runModule hev List.mem_cons_self
  rw [Machine.inImport_eq]
  cases e : Eval.runModule ev path loc (m.importing path) with
  | ok v m' =>
    rw [e] at h
    exact ⟨hcontext h.1, fun hm => hend h.1 (h.2 (hbegin hm))⟩
  | error d m' =>
    rw [e] at h
    exact ⟨hcontext h.1, fun hm => hend h.1 (h.2 (hbegin hm))⟩
  | halt r m' =>
    rw [e] at h
    exact fun hm => h (hbegin hm)

theorem loads_loadFile (hev : (loads cwd).Evaluates ev)
    (hf : m.Loads cwd none → Importable path m) :
    (loads cwd).Ends none m (Eval.loadFile ev path loc m) := by
  have h : Brings cwd path m (Eval.inImport path (Eval.runModule ev path loc) m) :=
    brings_inImport hev hf
  change (loads cwd).Ends none m
    (Eval.andThen (Eval.inImport path (Eval.runModule ev path loc)) _ m)
  unfold Eval.andThen
  cases e : Eval.inImport path (Eval.runModule ev path loc) m with
  | ok v m' =>
    rw [e] at h
    obtain ⟨hc, hl⟩ := h
    refine ⟨hc, fun hm => ?_⟩
    -- Other files may have been recorded meanwhile, this one not: it was pending.
    have hloading : path ∉ m'.context.loading := hc ▸ (hf hm).loading
    have hrecorded : path ∉ m'.recorded := (hl hm).reached.sound.waiting path rfl
    exact (hl hm).remember_give hloading hrecorded (.inr rfl)
  | error d m' => rw [e] at h; exact h
  | halt r m' => rw [e] at h; exact h

/-- The import of a file whose path the host reported. -/
theorem loads_importResolved (hev : (loads cwd).Evaluates ev)
    (hreported : path ∈ reportedPaths m.log)
    (habsolute : m.Loads cwd none → Path.isAbsolute path = true) :
    (loads cwd).Ends none m (Eval.importResolved ev path loc m) := by
  rw [Machine.importResolved_eq]
  -- The file is recorded, is being imported, or is imported now.
  cases e : m.known? path with
  | some v => exact loads_give (Machine.mem_of_known e)
  | none =>
    simp only
    split
    · exact ⟨rfl, id⟩
    · rename_i hloading
      exact loads_loadFile hev fun hm =>
        ⟨hreported, habsolute hm, hloading, Machine.known_eq_none.mp e⟩

end Import

/-- Files have absolute paths and modules of the library have not, so a module of the library is
never among the files being imported. -/
theorem loads_importStandard (c : Context) (s : StandardModule) :
    (loads cwd).Obeys c none (Eval.importStandard s) := by
  refine ⟨fun m hm => ?_⟩
  change (loads cwd).Ends none m ((match m.known? s.name with
    | some v => Eval.give s.name v
    | none => do
      let v ← Eval.buildStandard s
      Eval.remember s.name v
      Eval.give s.name v) m)
  cases e : m.known? s.name with
  | some v => exact loads_give (Machine.mem_of_known e)
  | none =>
    -- Building a module of the library leaves the loader alone.
    have hlocal := (Eval.local_buildStandard s).alike m
    change (loads cwd).Ends none m (Eval.andThen (Eval.buildStandard s) _ m)
    unfold Eval.andThen
    cases eb : Eval.buildStandard s m with
    | ok v m' =>
      rw [eb] at hlocal
      refine ⟨hlocal.context, fun hm => ?_⟩
      have hm' : m'.Loads cwd none := hm.alike hlocal
      have hmodules : m'.modules = m.modules := hlocal.modules
      have hloading : s.name ∉ m'.context.loading := fun hl =>
        absurd (hm'.absolute _ hl) (by simp [s.not_isAbsolute_name])
      have hrecorded : s.name ∉ m'.recorded := by
        rw [Machine.recorded, hmodules]
        exact Machine.known_eq_none.mp e
      exact hm'.remember_give hloading hrecorded (.inl rfl)
    | error d m' =>
      rw [eb] at hlocal
      exact ⟨hlocal.context, loads_lawful.alike (i := none) hlocal⟩
    | halt r m' =>
      rw [eb] at hlocal
      exact loads_lawful.alike_halts hlocal

theorem loads_importFile (hcwd : Path.isAbsolute cwd = true) {ev : Evaluator}
    (hev : (loads cwd).Evaluates ev) (c : Context) (path : String) (loc : Location) :
    (loads cwd).Obeys c none (Eval.importFile ev path loc) := by
  refine ⟨fun m hm => ?_⟩
  obtain ⟨r, m₁, hs, hr⟩ := Eval.resolveImport_spec path loc m
  have hfits : (loads cwd).fits c (.load loc path path) := trivial
  have h := (obeys_resolveImport loads_lawful hfits).ends m hm
  change (loads cwd).Ends none m (Eval.andThen (Eval.resolveImport path loc) _ m)
  unfold Eval.andThen
  rw [hr] at h ⊢
  cases hf : r.found with
  | none => rw [hf] at h; exact h
  | some place =>
    rw [hf] at h
    obtain ⟨htried, hreported⟩ := hs.found place hf
    -- From the search on, the path is one that the host reported, and absolute.
    refine .after loads_lawful h.1 h.2 (loads_importResolved hev ?_ fun hm₁ => ?_)
    · rw [Machine.log_after]
      exact Loader.reportedPaths_subset_cons _ _ hreported
    · have hpaths : m.host.paths = .posix cwd := hs.probes.paths ▸ hm₁.paths
      have hplace := hs.sought.isPrefix.subset htried
      rw [hpaths] at hplace
      exact PathRules.isAbsolute_importPlaces hcwd hplace

/-- **Imports.** They are steps of the loader. -/
theorem loads_imports (hcwd : Path.isAbsolute cwd = true) : (loads cwd).Imports := by
  intro ev c loc path name hev _
  unfold Eval.importModule
  split
  · exact loads_importStandard c _
  · exact loads_importFile hcwd hev c path loc

end Discipline

/-! ### How an import ends -/

namespace Eval

variable {ev : Evaluator} {path : String} {loc : Location} {m m' : Machine} {v : Value}

/-- A file that is being imported is not imported again. -/
theorem importResolved_circular (hl : path ∈ m.context.loading) (hr : path ∉ m.recorded) :
    importResolved ev path loc m =
      fail (.circularImport m.context.loading.reverse path) loc m := by
  rw [Machine.importResolved_eq, Machine.known_eq_none.mpr hr]
  exact if_pos hl

/-- An import that meets a file being imported fails. The error names the files being imported, from
the outermost on, and the one that was met; the loader stays as it is. -/
def RefusesCircles (ev : Evaluator) (path : String) (loc : Location) : Prop :=
  ∀ m resolved m', StandardModule.ofName? path = none → resolveImport path loc m = .ok resolved m' →
    resolved ∈ m'.context.loading → ImportLog m'.log →
    ∃ d, importModule ev path loc m = .error d m' ∧ d.code = "MOD003" ∧ d.location = loc ∧
      d.message = "Circular module dependency detected: " ++
        String.intercalate " -> " (m.context.loading.reverse ++ [resolved]) ++ "." ∧
      m'.context.loading = m.context.loading ∧ m'.modules = m.modules

theorem refusesCircles (ev : Evaluator) (path : String) (loc : Location) :
    RefusesCircles ev path loc := by
  intro m resolved m' hname hr hl hlog
  obtain ⟨r, m₁, hs, -, rfl⟩ := resolveImport_ok hr
  have hcontext := hs.probes.context
  -- The search is the last event, so its entry shows the loader. A file on record is not being
  -- imported, and this one is.
  have hentry := hlog.moments [] _ _ (Machine.log_after _ _)
  have hrecorded : resolved ∉ m₁.recorded := fun hk => hentry.disjoint resolved hk hl
  refine ⟨((RuntimeFault.circularImport m.context.loading.reverse resolved).toDiagnostic
    loc).raisedIn
    m.context.calls.frames, ?_, rfl, rfl, rfl, congrArg _ hcontext, hs.probes.modules⟩
  unfold importModule
  rw [hname]
  change andThen (resolveImport path loc) _ m = _
  unfold andThen
  rw [hr]
  change importResolved ev resolved loc _ = _
  rw [importResolved_circular hl hrecorded, Machine.context_after, hcontext, fail, raise,
    Machine.context_after, hcontext]

/-- The outcome is no success, or the last event is that an import gave the result. -/
def Answers (key : String) (o : Outcome Value) : Prop :=
  ∀ v m', o = .ok v m' → ∃ m₁ : Machine, m' = m₁.after (.gave key v)

theorem answers_give (key : String) (v : Value) (m : Machine) : Answers key (give key v m) := by
  rintro _ _ ⟨⟩
  exact ⟨m, rfl⟩

theorem answers_importResolved (ev : Evaluator) (path : String) (loc : Location) (m : Machine) :
    Answers path (importResolved ev path loc m) := by
  rw [Machine.importResolved_eq]
  cases m.known? path with
  | some v => exact answers_give path v m
  | none =>
    simp only
    split
    · rintro v m' ⟨⟩
    · change Answers path (andThen (inImport path (runModule ev path loc)) _ m)
      unfold andThen
      cases inImport path (runModule ev path loc) m with
      | ok v m₁ => exact answers_give path v (m₁.remembering path v)
      | error d m₁ => rintro v m' ⟨⟩
      | halt r m₁ => rintro v m' ⟨⟩

theorem answers_importStandard (s : StandardModule) (m : Machine) :
    Answers s.name (importStandard s m) := by
  change Answers s.name ((match m.known? s.name with
    | some v => give s.name v
    | none => do
      let v ← buildStandard s
      remember s.name v
      give s.name v) m)
  cases m.known? s.name with
  | some v => exact answers_give s.name v m
  | none =>
    change Answers s.name (andThen (buildStandard s) _ m)
    unfold andThen
    cases buildStandard s m with
    | ok v m₁ => exact answers_give s.name v (m₁.remembering s.name v)
    | error d m₁ => rintro v m' ⟨⟩
    | halt r m₁ => rintro v m' ⟨⟩

/-- The key of an import is the name of a library module, or the path that was found. -/
def ImportKey (path : String) (loc : Location) (m : Machine) (key : String) : Prop :=
  match StandardModule.ofName? path with
  | some s => key = s.name
  | none => ∃ m', resolveImport path loc m = .ok key m'

/-- An import that succeeds says so in the journal, under its key. -/
def NotesAnswers (ev : Evaluator) (path : String) (loc : Location) : Prop :=
  ∀ m v m', importModule ev path loc m = .ok v m' →
    ∃ key, ImportKey path loc m key ∧ ∃ m₁ : Machine, m' = m₁.after (.gave key v)

theorem notesAnswers (ev : Evaluator) (path : String) (loc : Location) :
    NotesAnswers ev path loc := by
  intro m v m' h
  unfold importModule at h
  unfold ImportKey
  cases hs : StandardModule.ofName? path with
  | some s =>
    rw [hs] at h
    exact ⟨s.name, rfl, answers_importStandard s m v m' h⟩
  | none =>
    rw [hs] at h
    change andThen (resolveImport path loc) _ m = _ at h
    unfold andThen at h
    cases e : resolveImport path loc m with
    | ok resolved m₁ =>
      rw [e] at h
      exact ⟨resolved, ⟨m₁, rfl⟩, answers_importResolved ev resolved loc m₁ v m' h⟩
    | error d m₁ => rw [e] at h; cases h
    | halt r m₁ => rw [e] at h; cases h

end Eval

/-! ### Runs -/

/-- The journal of a machine is a run of a loader, so it is in order. -/
def Machine.LoaderRan (m : Machine) : Prop :=
  (∃ l, Loader.Reached m.log l) ∧ ImportLog m.log

namespace Discipline

variable {cwd : String} {setup : Machine.Setup}

theorem loads_initial (hpaths : setup.host.paths = .posix cwd) :
    (Machine.initial setup).Loads cwd none := by
  obtain ⟨hc, hm, hp, hj⟩ := Machine.initial_settled setup
  refine ⟨?_, by simp [hc], hp.trans hpaths⟩
  rw [hj, Machine.loader, hc, hm]
  exact .start

/-- What obeys the discipline leaves a run of a loader, however it ends. -/
theorem loaderRan_of_obeys {α : Type} {i : Option ScopeId} {m : Machine} {x : Eval α}
    (hx : (loads cwd).Obeys m.context i x) (hm : m.Loads cwd none) : (x m).machine.LoaderRan := by
  have h := hx.ends m rfl
  have hreached : ∃ l, Loader.Reached (x m).machine.log l := by
    cases e : x m with
    | ok a m' => rw [e] at h; exact ⟨_, (h.2 hm).reached⟩
    | error d m' => rw [e] at h; exact ⟨_, (h.2 hm).reached⟩
    | halt r m' => rw [e] at h; exact h hm
  obtain ⟨l, hl⟩ := hreached
  exact ⟨⟨l, hl⟩, hl.importLog⟩

end Discipline

open Discipline in
/-- **The loader is sound.** On a host with the path rules of POSIX systems and an absolute working
directory, the journal of every program, and of any number of requests, is a run of a loader: at
every moment its state is in order, no file runs to its end twice, and imports of one name or path
give one value. Imports that meet themselves fail, and those that succeed are in the journal. -/
theorem loader_sound (setup : Machine.Setup) (cwd : String)
    (hpaths : setup.host.paths = .posix cwd) (hcwd : Path.isAbsolute cwd = true) :
    (∀ p file, (Machine.interpret p file (Machine.initial setup)).machine.LoaderRan) ∧
    (∀ requests, (Machine.serve requests (Machine.initial setup)).machine.LoaderRan) ∧
    (∀ ev path loc, Eval.RefusesCircles ev path loc) ∧
    (∀ ev path loc, Eval.NotesAnswers ev path loc) := by
  have hL : (loads cwd).Lawful := loads_lawful
  have hI : (loads cwd).Imports := loads_imports hcwd
  have hfits (c : Context) (s : Stmt) : (loads cwd).fits c s := trivial
  have hinitial := loads_initial hpaths
  refine ⟨fun p file => ?_, fun requests => ?_, Eval.refusesCircles, Eval.notesAnswers⟩
  · exact loaderRan_of_obeys (obeys_request hL hI hfits (.interpret p file) _) hinitial
  · exact loaderRan_of_obeys (obeys_serve hL hI hfits requests _) hinitial

/-- Two imports of one file in memory, by two spellings. -/
theorem loader_sound_sandbox :
    let setup : Machine.Setup :=
      { host := .sandbox { files := .ofList [("/work/a.mimo", "show 1")] } }
    setup.host.paths = .posix "/work" ∧ Path.isAbsolute "/work" = true ∧
      (Machine.interpret ⟨[.load default "a" "first", .load default "./a.mimo" "second"], default⟩
        "/work/main.mimo" (Machine.initial setup)).machine.LoaderRan :=
  ⟨rfl, by decide, (loader_sound _ "/work" rfl (by decide)).1 _ _⟩

end ScriptLang
