import ScriptLang.Proofs.AssociationLists
import ScriptLang.Proofs.DeclaredNames
import ScriptLang.Proofs.LoaderRuns
import ScriptLang.Proofs.PlainValues

/-!
# What files export

What a file exports is collected when it has run to its end: the exported names are read off its
text, and each is looked up in the scope of the file. This file says which values are found.

* `Program.exportedNames` and `Scopes.exported` — the names and their values. A name that the file
  does not have is looked for in the global scope, where the library is.
* `Executes` lists the statements that are executed. `Executes.declares` is the induction over them:
  their names are bound to the end.
* `FileRun` is the run of a file to its end, and `Eval.exists_fileRun` finds it in an import.
* `files_export` is the main statement.
-/

namespace ScriptLang

/-! ### Names and values -/

/-- The names that a file exports if it chooses them, each at its first place. -/
def Program.exportedNames (p : Program) : List String :=
  ((p.statements.filter Stmt.isExported).flatMap Stmt.declaredNames).eraseDups

namespace Scopes

/-- What a file with the scope `id` exports under a name: the value of its own binding, else the
value of the global one, and null if there is neither. -/
def exported (t : Scopes) (id : ScopeId) (name : String) : Value :=
  .ofOption (((t.own? id name).or (t.own? root name)).map (·.value))

variable {t : Scopes} {id : ScopeId} {name : String} {b : Binding}

theorem exported_of_own (h : t.own? id name = some b) : t.exported id name = b.value := by
  simp [exported, h, Value.ofOption]

/-- A global binding is exported if the file has none of its own. -/
theorem exported_of_root (h : t.own? id name = none) (hb : t.own? root name = some b) :
    t.exported id name = b.value := by
  simp [exported, h, hb, Value.ofOption]

/-- The root is the last scope that a look-up comes to. -/
theorem find?_root (t : Scopes) (name : String) :
    t.find? name root = (t.own? root name).map (root, ·) := by
  rw [find?]
  unfold own?
  cases (t.get root).vars.get? name with
  | some b => rfl
  | none =>
    cases (t.get root).parent with
    | none => rfl
    | some p => exact if_neg (Nat.not_lt_zero p)

/-- A look-up from the scope of a file goes on in the root. -/
theorem lookup?_file (hp : (t.get id).parent = some root) (hid : root < id) (name : String) :
    Value.ofOption (t.lookup? name id) = t.exported id name := by
  unfold lookup? exported
  rw [find?]
  cases h : (t.get id).vars.get? name with
  | some b => simp [own?, h]
  | none =>
    have hown : t.own? id name = none := h
    simp only [hp, hid, if_true, find?_root]
    rw [hown, Option.none_or, Option.map_map]
    rfl

end Scopes

/-! ### Executed statements -/

/-- **Executes.** Statements are executed one after the other, up to one that ends otherwise than on
its own. Each is listed with the machine that it leaves. -/
inductive Executes (ev : Evaluator) : List Stmt → Machine → List (Stmt × Machine) → Flow → Machine →
    Prop
  | done {m : Machine} (last : Value) : Executes ev [] m [] (.normal last) m
  | goesOn {s : Stmt} {rest : List Stmt} {m m₁ m' : Machine} {v : Value}
    {steps : List (Stmt × Machine)} {flow : Flow} (h : ev.stmt s m = .ok (.normal v) m₁)
    (hrest : Executes ev rest m₁ steps flow m') :
    Executes ev (s :: rest) m ((s, m₁) :: steps) flow m'
  | stops {s : Stmt} {rest : List Stmt} {m m' : Machine} {flow : Flow}
    (h : ev.stmt s m = .ok flow m') (hflow : ∀ v, flow ≠ .normal v) :
    Executes ev (s :: rest) m [(s, m')] flow m'

namespace Executes

variable {ev : Evaluator} {ss : List Stmt} {m m' : Machine} {steps : List (Stmt × Machine)}
  {flow : Flow}

/-- What is executed when statements are run. -/
theorem of_runFrom {last : Value} (h : Eval.runFrom ev ss last m = .ok flow m') :
    ∃ steps, Executes ev ss m steps flow m' := by
  induction ss generalizing last m with
  | nil =>
    cases h
    exact ⟨[], .done last⟩
  | cons st rest ih =>
    obtain ⟨flow₁, m₁, hst, hrest⟩ := Eval.exists_ok_of_bind h
    cases flow₁ with
    | normal v =>
      obtain ⟨steps, hsteps⟩ := ih hrest
      exact ⟨_, .goesOn hst hsteps⟩
    | giveBack v | breakTo j | continueTo j =>
      cases hrest
      exact ⟨_, .stops hst (by simp)⟩

/-- **Run.** By induction on the executed statements: what one of them declares is bound when it
ends, and scopes grow from there. -/
theorem declares {id : ScopeId}
    (hev : ∀ s, Eval.Declares id (s.home id) s.declaredNames (ev.stmt s))
    (h : Executes ev ss m steps flow m') (hm : m.Top id) :
    m'.Top id ∧ m.scopes.Grows m'.scopes ∧
      ∀ s n, (s, n) ∈ steps → n.scopes.Grows m'.scopes ∧
        ∀ name ∈ s.declaredNames, ∃ b, n.scopes.own? (s.home id) name = some b := by
  induction h with
  | done last => exact ⟨hm, .refl _, by simp⟩
  | @goesOn s rest m m₁ m' v steps flow hs hrest ih =>
    obtain ⟨hm₁, hgrows₁, hnames⟩ := (hev s).ends hm hs
    obtain ⟨hm', hgrows, hsteps⟩ := ih hm₁
    refine ⟨hm', hgrows₁.trans hgrows, fun s' n hmem => ?_⟩
    rcases List.mem_cons.mp hmem with heq | hmem
    · cases heq
      exact ⟨hgrows, hnames⟩
    · exact hsteps s' n hmem
  | @stops s rest m m' flow hs hflow =>
    obtain ⟨hm', hgrows, hnames⟩ := (hev s).ends hm hs
    refine ⟨hm', hgrows, fun s' n hmem => ?_⟩
    cases List.mem_singleton.mp hmem
    exact ⟨.refl _, hnames⟩

end Executes

/-! ### The run of a file -/

/-- The machine that begins to run the text of a file, in a new scope. -/
def Machine.entering (m : Machine) (path source : String) : Machine :=
  ((m.reading path source).withChild Scopes.root .moduleRoot).inContext
    (m.context.enterFile m.scopes.table.size path)

/-- A run of the file at a path to its end, by the end of its text or by a returned value. -/
structure FileRun (ev : Evaluator) (path : String) (m m' : Machine) where
  source : String
  program : Program
  /-- The machine in which the statements start. The functions of the file are declared there. -/
  start : Machine
  /-- The executed statements, with the machines after them. -/
  steps : List (Stmt × Machine)
  flow : Flow
  /-- The machine in which the statements end. -/
  stop : Machine
  reads : m.host.read path = .ok source
  parses : Program.ofSource source path = .ok program
  hoists : Eval.hoist program.statements (m.entering path source) = .ok () start
  executes : Executes ev program.statements start steps flow stop
  ends : ∃ v, flow = .normal v ∨ flow = .giveBack v
  scopes : m'.scopes = stop.scopes

/-- The declarations of the run, with the machines after them. Functions are declared before the
first statement is executed. -/
def FileRun.declarations {ev : Evaluator} {path : String} {m m' : Machine}
    (run : FileRun ev path m m') : List (Stmt × Machine) :=
  (run.program.statements.filter Stmt.isFunction).map (·, run.start) ++ run.steps

namespace Eval

variable {α : Type} {ev : Evaluator} {id : ScopeId} {path : String} {loc : Location}
  {m m' : Machine}

theorem exists_ok_of_inFile {x : Eval α} {a : α} (h : inFile id path x m = .ok a m') :
    ∃ n, x (m.inContext (m.context.enterFile id path)) = .ok a n ∧ m'.scopes = n.scopes := by
  have henter : overContext (·.enterFile id path) m =
      m.inContext (m.context.enterFile id path) := rfl
  unfold inFile inContext at h
  rw [henter] at h
  cases e : x (m.inContext (m.context.enterFile id path)) with
  | ok b n =>
    rw [e] at h
    cases h
    exact ⟨n, rfl, rfl⟩
  | error d n => rw [e] at h; cases h
  | halt r n => rw [e] at h; cases h

/-- A file ends on its own or by a returned value. -/
theorem ends_of_atBoundary {flow : Flow} {v : Value}
    (h : flow.atBoundary (fun v => v) m = .ok v m') :
    (flow = .normal v ∨ flow = .giveBack v) ∧ m' = m := by
  cases flow with
  | normal w =>
    cases h
    exact ⟨.inl rfl, rfl⟩
  | giveBack w =>
    cases h
    exact ⟨.inr rfl, rfl⟩
  | breakTo j => cases h
  | continueTo j => cases h

/-- A file that was run to its end. -/
theorem exists_fileRun {p : Program} (h : runFile ev path loc m = .ok (p, id) m') :
    ∃ run : FileRun ev path m m', run.program = p ∧ id = m.scopes.table.size := by
  cases hread : m.host.read path with
  | error failure =>
    rw [Machine.runFile_unreadable ev loc hread] at h
    cases h
  | ok source =>
    rw [Machine.runFile_reading ev loc hread] at h
    unfold runText at h
    cases hparse : Program.ofSource source path with
    | error d =>
      rw [hparse] at h
      cases h
    | ok program =>
      rw [hparse] at h
      -- A new scope, and in it the statements, which end where a file may.
      obtain ⟨id', m₁, hnew, h⟩ := exists_ok_of_bind h
      cases hnew
      obtain ⟨u, m₂, hfile, h⟩ := exists_ok_of_bind h
      cases h
      obtain ⟨n, hrun, hscopes⟩ := exists_ok_of_inFile hfile
      obtain ⟨flow, n₁, hstatements, hrun⟩ := exists_ok_of_bind hrun
      obtain ⟨v, n₂, hend, hrun⟩ := exists_ok_of_bind hrun
      cases hrun
      obtain ⟨hflow, rfl⟩ := ends_of_atBoundary hend
      -- Functions first, then one statement after the other.
      obtain ⟨u, start, hhoist, hfrom⟩ := exists_ok_of_bind hstatements
      obtain ⟨steps, hsteps⟩ := Executes.of_runFrom hfrom
      exact ⟨⟨source, _, start, steps, flow, _, hread, hparse, hhoist, hsteps, ⟨v, hflow⟩, hscopes⟩,
        rfl, rfl⟩

end Eval

/-- A file begins at its top. -/
theorem Machine.top_entering (m : Machine) (path source : String) :
    (m.entering path source).Top m.scopes.table.size where
  current := rfl
  lt_size := by
    change _ < (m.scopes.child Scopes.root .moduleRoot).2.table.size
    simp [Scopes.child]
  role := congrArg Scope.role (Scopes.get_child_size m.scopes Scopes.root .moduleRoot)

namespace FileRun

variable {n : Nat} {path : String} {m m' : Machine}

/-- What the declarations of a file bind is bound when the file has run to its end. -/
theorem declares (run : FileRun (Evaluator.ofBound n) path m m') :
    (m.entering path run.source).scopes.Grows m'.scopes ∧
      ∀ s k, (s, k) ∈ run.declarations → k.scopes.Grows m'.scopes ∧
        ∀ name ∈ s.declaredNames,
          ∃ b, k.scopes.own? (s.home m.scopes.table.size) name = some b := by
  have hstatement (s : Stmt) : Eval.Declares m.scopes.table.size (s.home m.scopes.table.size)
      s.declaredNames ((Evaluator.ofBound n).stmt s) := by
    cases n with
    -- At depth zero no statement succeeds.
    | zero => exact ⟨fun _ h => by cases h⟩
    | succ n =>
      rw [Evaluator.ofBound_succ]
      exact Eval.declares_statement (Discipline.evaluates_growing n) s
  obtain ⟨htop, hgrows, hfunctions⟩ :=
    (Eval.declares_hoist _).ends (m.top_entering path run.source) run.hoists
  obtain ⟨hstop, hgrows', hsteps⟩ := run.executes.declares hstatement htop
  rw [run.scopes]
  refine ⟨hgrows.trans hgrows', fun s k hmem => ?_⟩
  rcases List.mem_append.mp hmem with hmem | hmem
  · obtain ⟨s', hs', heq⟩ := List.mem_map.mp hmem
    cases heq
    refine ⟨hgrows', fun name hname => ?_⟩
    -- A function is declared in the scope of the file.
    have hhome : s.home m.scopes.table.size = m.scopes.table.size := by
      have hfunction := (List.mem_filter.mp hs').2
      cases s with
      | function loc fn exported => rfl
      | _ => cases hfunction
    rw [hhome]
    exact hfunctions name (List.mem_flatMap.mpr ⟨s, hs', hname⟩)
  · exact hsteps s k hmem

/-- The scope of a file is inside of the root. -/
theorem parent (run : FileRun (Evaluator.ofBound n) path m m') :
    (m'.scopes.get m.scopes.table.size).parent = some Scopes.root := by
  have htop := m.top_entering path run.source
  rw [(run.declares.1.scopes _ htop.lt_size).parent]
  exact congrArg Scope.parent (Scopes.get_child_size m.scopes Scopes.root .moduleRoot)

end FileRun

/-! ### The main statement -/

/-- The object of a file that ran to its end. -/
theorem Eval.exists_exports {ev : Evaluator} {path : String} {loc : Location} {m m' : Machine}
    {v : Value} (h : Eval.runModule ev path loc m = .ok v m') :
    ∃ (run : FileRun ev path m m') (r : Ref), v = .object r ∧
      m'.heap.object r = Eval.exportsOf run.program m'.scopes m.scopes.table.size := by
  obtain ⟨⟨p, id⟩, m₁, hrun, h⟩ := Eval.exists_ok_of_bind h
  obtain ⟨run, rfl, rfl⟩ := Eval.exists_fileRun hrun
  obtain ⟨u, m₂, hnote, h⟩ := Eval.exists_ok_of_bind h
  cases hnote
  obtain ⟨entries, m₃, hlook, h⟩ := Eval.exists_ok_of_bind h
  cases hlook
  cases h
  exact ⟨⟨run.source, run.program, run.start, run.steps, run.flow, run.stop, run.reads, run.parses,
    run.hoists, run.executes, run.ends, run.scopes⟩, _, rfl, Heap.object_allocObject ..⟩

/-- **What files export.** Let a file be run to its end. If it exports nothing by name, its object
has the bindings of its scope, in order. Otherwise its object has the names of the exported
declarations, in order, each with the value that `Scopes.exported` finds in the end. The names of a
declaration that was executed, or hoisted, are bound from then on in the scope that the declaration
is for, and a binding in the scope of the file is the one that is exported; one in the global scope
is, unless the file has the name as well.

There is a root at every moment of every run (`scopes_stand`). -/
theorem files_export (n : Nat) {path : String} {loc : Location} {m m' : Machine} {v : Value}
    (hroot : Scopes.root < m.scopes.table.size)
    (h : Eval.runModule (Evaluator.ofBound n) path loc m = .ok v m') :
    ∃ (run : FileRun (Evaluator.ofBound n) path m m') (r : Ref), v = .object r ∧
      let id := m.scopes.table.size
      (run.program.hasExports = false →
        (m'.heap.object r).toList = m'.scopes.bindings id) ∧
      (run.program.hasExports = true →
        (m'.heap.object r).toList =
          run.program.exportedNames.map fun name => (name, m'.scopes.exported id name)) ∧
      ∀ s k, (s, k) ∈ run.declarations → ∀ name ∈ s.declaredNames, ∃ b b',
        k.scopes.own? (s.home id) name = some b ∧ m'.scopes.own? (s.home id) name = some b' ∧
        b.Keeps b' ∧ (s.home id = id ∨ m'.scopes.own? id name = none →
          m'.scopes.exported id name = b'.value) := by
  obtain ⟨run, r, rfl, hobject⟩ := Eval.exists_exports h
  obtain ⟨hgrows, hdeclares⟩ := run.declares
  refine ⟨run, r, rfl, fun hnone => ?_, fun hsome => ?_, fun s k hmem name hname => ?_⟩
  · -- No two bindings of a scope have one name, so none replaces another.
    have hnodup : ((m'.scopes.bindings m.scopes.table.size).map Prod.fst).Nodup := by
      have hkeys := (m'.scopes.get m.scopes.table.size).vars.nodup_keys
      unfold Scopes.bindings
      rw [List.map_map]
      exact hkeys
    rw [hobject, Eval.exportsOf, hnone, if_neg (by simp), OrderedMap.toList_ofList,
      Entries.ofList_of_nodup hnodup]
  · have hvalues : Eval.exportedValues m'.scopes m.scopes.table.size =
        List.map fun name => (name, m'.scopes.exported m.scopes.table.size name) := by
      funext names
      unfold Eval.exportedValues
      simp only [Scopes.lookup?_file run.parent hroot]
    rw [hobject, Eval.exportsOf, if_pos hsome, hvalues, OrderedMap.toList_ofList,
      Entries.ofList_map]
    rfl
  · -- A binding stays, in the scope that the declaration is for; this is the scope of the file or
    -- the global one.
    obtain ⟨hgrows', hnames⟩ := hdeclares s k hmem
    obtain ⟨b, hb⟩ := hnames name hname
    obtain ⟨b', hb', hkeeps⟩ := hgrows'.own? hb
    refine ⟨b, b', hb, hb', hkeeps, fun hwhere => ?_⟩
    rcases s.home_eq m.scopes.table.size with hfile | hglobal
    · rw [hfile] at hb'
      exact Scopes.exported_of_own hb'
    · rcases hwhere with hfile | hnone
      · rw [hfile] at hb'
        exact Scopes.exported_of_own hb'
      · rw [hglobal] at hb'
        exact Scopes.exported_of_root hnone hb'

/-- A file that returns before its exported declaration of a global name. The global value is what
it exports. -/
theorem files_export_global :
    let m : Machine := {
      scopes := Scopes.initial.bind Scopes.root "x" ⟨.bool true, .global⟩
      host := .sandbox { files := .ofList [("/m.mimo", "return null\nexport let x null")] } }
    Scopes.root < m.scopes.table.size ∧
    ∃ m', Eval.runModule (Evaluator.ofBound 3) "/m.mimo" default m = .ok (.object 0) m' ∧
      (m'.heap.object 0).toList = [("x", .bool true)] := by
  intro m
  have hread : m.host.read "/m.mimo" = .ok "return null\nexport let x null" := by cbv
  have htokens : Lexer.tokenize "return null\nexport let x null" "/m.mimo" = .ok
      [⟨.keyword, "return", ⟨0, 6⟩, 1, 1, "/m.mimo"⟩, ⟨.null, "null", ⟨7, 11⟩, 1, 8, "/m.mimo"⟩,
        ⟨.keyword, "export", ⟨12, 18⟩, 2, 1, "/m.mimo"⟩,
        ⟨.keyword, "let", ⟨19, 22⟩, 2, 8, "/m.mimo"⟩,
        ⟨.identifier, "x", ⟨23, 24⟩, 2, 12, "/m.mimo"⟩,
        ⟨.null, "null", ⟨25, 29⟩, 2, 14, "/m.mimo"⟩,
        ⟨.eof, "", ⟨29, 29⟩, 2, 18, "/m.mimo"⟩] := by cbv
  obtain ⟨a, b, c, d, e, hparse⟩ : ∃ a b c d e : Location,
      Program.ofSource "return null\nexport let x null" "/m.mimo" =
        .ok ⟨[.giveBack a (some (.literal b .null)),
          .declare c .let (.name "x") (.literal d .null) true], e⟩ := by
    unfold Program.ofSource
    rw [htokens]
    exact ⟨_, _, _, _, _, rfl⟩
  obtain ⟨m₁, hfile, hscopes, hheap⟩ : ∃ m₁,
      Eval.runFile (Evaluator.ofBound 3) "/m.mimo" default m =
        .ok (⟨[.giveBack a (some (.literal b .null)),
          .declare c .let (.name "x") (.literal d .null) true], e⟩, 1) m₁ ∧
      m₁.scopes = (m.scopes.child Scopes.root .moduleRoot).2 ∧ m₁.heap = {} := by
    rw [Machine.runFile_reading _ _ hread, Eval.runText, hparse]
    exact ⟨_, rfl, rfl, rfl⟩
  have hroot : Scopes.root < m.scopes.table.size := by
    change 0 < (Scopes.initial.bind Scopes.root "x" ⟨.bool true, .global⟩).table.size
    simp [Scopes.bind, Scopes.initial]
  obtain ⟨m', hrun, hm'⟩ : ∃ m',
      Eval.runModule (Evaluator.ofBound 3) "/m.mimo" default m = .ok (.object 0) m' ∧
      m'.scopes = m₁.scopes := by
    unfold Eval.runModule
    rw [Eval.bind_of_ok hfile]
    obtain ⟨⟩ := m₁
    subst hheap
    exact ⟨_, rfl, rfl⟩
  refine ⟨hroot, m', hrun, ?_⟩
  obtain ⟨run, r, hr, -, hsome, -⟩ := files_export 3 hroot hrun
  cases hr
  have hsource : run.source = "return null\nexport let x null" :=
    Except.ok.inj (run.reads.symm.trans hread)
  have hparse' := run.parses
  rw [hsource, hparse] at hparse'
  have hprogram := (Except.ok.inj hparse').symm
  have hvalue : m'.scopes.exported m.scopes.table.size "x" = .bool true := by
    -- The new scope has no names, and the global name is where it was.
    rw [hm', hscopes]
    refine Scopes.exported_of_root ?_ (b := ⟨.bool true, .global⟩) ?_
    · unfold Scopes.own?
      rw [Scopes.get_child_size, OrderedMap.get?_empty]
    · unfold Scopes.own?
      rw [Scopes.get_child hroot]
      exact Scopes.own?_bind Nat.zero_lt_one
  rw [hprogram] at hsome
  rw [hsome rfl]
  exact congrArg (fun v => [("x", v)]) hvalue

end ScriptLang
