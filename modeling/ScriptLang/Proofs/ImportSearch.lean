import ScriptLang.Eval.Import
import ScriptLang.Proofs.HostPaths
import ScriptLang.Proofs.Journals

/-!
# The search for a file to import

An import asks the host for one place after the other, up to the first that exists. This file says
what the search leaves behind, whatever the host answers.

* `Machine.Probes` — the machine after the search is the one before it after questions to the host,
  each with its entry in the journal.
* `Machine.Sought` — the search went through the places in order, up to one that the host reported,
  or else through all of them.
* `Eval.search_spec` — the search always ends with a result, which is as just said.
* `Eval.resolveImport_spec` — so does the whole step from the path of an import to that of a file,
  which adds the entry `Event.sought` and either gives the place that was found or fails.
-/

namespace ScriptLang

/-- The places that an import in a file may mean: the path as it is, and with the ending of program
files, from the directory of the file. -/
def PathRules.importPlaces (h : PathRules) (file path : String) : List String :=
  [path, path ++ Eval.sourceEnding].map fun name => h.resolve [h.dirname file, name]

/-! ### The search for a file -/

/-- The machine after the host was asked what is at a path. -/
def Machine.probed (m : Machine) (path : String) : Machine :=
  { m with host := m.host.asked }.after (.probed path (m.host.present path))

/-- The second machine is the first one after questions to the host. -/
inductive Machine.Probes : Machine → Machine → Prop where
  | refl (m : Machine) : Probes m m
  | step {m m' : Machine} (path : String) : Probes (m.probed path) m' → Probes m m'

/-- The places that were tried, as seen from the machine afterwards: they come first among the
places that an import may mean, and either they are all or the host reported the last of them. -/
structure Machine.Sought (m : Machine) (places tried : List String) : Prop where
  isPrefix : tried <+: places
  nonempty : places ≠ [] → tried ≠ []
  complete : tried = places ∨ ∃ place, tried.getLast? = some place ∧ place ∈ reportedPaths m.log

/-- What a search among places found, and the machine that it leads to. -/
structure Eval.Searched (m : Machine) (places : List String) (r : Search) (m' : Machine) :
    Prop where
  probes : m.Probes m'
  sought : m'.Sought places r.tried
  found : ∀ place, r.found = some place → place ∈ r.tried ∧ place ∈ reportedPaths m'.log

namespace Machine.Probes

variable {m m' : Machine}

theorem context (h : m.Probes m') : m'.context = m.context := by
  induction h with
  | refl m => rfl
  | step path _ ih => exact ih

theorem modules (h : m.Probes m') : m'.modules = m.modules := by
  induction h with
  | refl m => rfl
  | step path _ ih => exact ih

theorem paths (h : m.Probes m') : m'.host.paths = m.host.paths := by
  induction h with
  | refl m => rfl
  | step path _ ih => exact ih.trans (Host.paths_asked _)

end Machine.Probes

/-- **The search.** It ends with a result, after one question for each place that it tried. -/
theorem Eval.search_spec (directory : String) (candidates : List String) (m : Machine) :
    ∃ r m', search directory candidates m = .ok r m' ∧
      Searched m (candidates.map fun name => m.host.resolve [directory, name]) r m' := by
  -- On the candidates still to come, from whatever machine the questions before led to.
  induction candidates generalizing m with
  | nil => exact ⟨_, _, rfl, .refl m, ⟨List.prefix_rfl, fun h => absurd rfl h, .inl rfl⟩, by simp⟩
  | cons name rest ih =>
    let place := m.host.resolve [directory, name]
    cases hp : m.host.present place with
    -- The search ends here.
    | true =>
      have hreported : place ∈ reportedPaths (m.probed place).log := by
        simp [Machine.probed, hp, reportedPaths, Event.reported?]
      refine ⟨⟨[place], some place⟩, m.probed place, ?_, .step place (.refl _), ?_, ?_⟩
      · change (if m.host.present place then _ else _ : Eval Search) (m.probed place) = _
        rw [hp]
        rfl
      · exact ⟨by simp [place], by simp, .inr ⟨place, rfl, hreported⟩⟩
      · rintro _ ⟨⟩
        exact ⟨List.mem_singleton_self place, hreported⟩
    | false =>
      obtain ⟨r, m', hr, hs⟩ := ih (m.probed place)
      refine ⟨⟨place :: r.tried, r.found⟩, m', ?_, .step place hs.probes, ?_, ?_⟩
      · change (if m.host.present place then _ else _ : Eval Search) (m.probed place) = _
        rw [hp]
        change Eval.andThen _ _ (m.probed place) = _
        unfold Eval.andThen
        rw [hr]
        rfl
      · -- Asking changes no path rules, so the other places are read as before.
        obtain ⟨ht, -, hc⟩ := hs.sought
        simp only [Machine.probed, Machine.host_after, Host.resolve, Host.paths_asked] at ht hc
        refine ⟨by simpa [place, Host.resolve] using ht, by simp, ?_⟩
        rcases hc with hall | ⟨last, hlast, hreported⟩
        · exact .inl (by simp [place, Host.resolve, hall])
        · exact .inr ⟨last, by simp [List.getLast?_cons, hlast], hreported⟩
      · intro p h
        obtain ⟨ht, hr⟩ := hs.found p h
        exact ⟨List.mem_cons_of_mem _ ht, hr⟩

/-- **The path of an import.** Its places are searched, which is noted, and the one that was found
is the result. -/
theorem Eval.resolveImport_spec (path : String) (loc : Location) (m : Machine) :
    ∃ r m', Searched m (m.host.paths.importPlaces m.context.file path) r m' ∧
      resolveImport path loc m = match r.found with
        | some place => .ok place (m'.after (.sought loc path r.tried))
        | none =>
          fail (.moduleNotFound path r.tried) loc (m'.after (.sought loc path r.tried)) := by
  obtain ⟨r, m', hr, h⟩ := search_spec (m.host.paths.dirname m.context.file)
    [path, path ++ sourceEnding] m
  refine ⟨r, m', h, ?_⟩
  change Eval.andThen (search _ _) _ m = _
  unfold Eval.andThen
  rw [hr]
  change ((match r.found with
    | some place => pure place
    | none => fail (.moduleNotFound path r.tried) loc : Eval String)
    (m'.after (.sought loc path r.tried))) = _
  cases r.found <;> rfl

/-- An import whose path was found noted its search last. -/
theorem Eval.resolveImport_ok {path resolved : String} {loc : Location} {m m' : Machine}
    (h : resolveImport path loc m = .ok resolved m') :
    ∃ r m₁, Searched m (m.host.paths.importPlaces m.context.file path) r m₁ ∧
      r.found = some resolved ∧ m' = m₁.after (.sought loc path r.tried) := by
  obtain ⟨r, m₁, hs, hr⟩ := resolveImport_spec path loc m
  refine ⟨r, m₁, hs, ?_⟩
  rw [hr] at h
  cases hf : r.found with
  | none =>
    rw [hf] at h
    cases h
  | some place =>
    rw [hf] at h
    cases h
    exact ⟨rfl, rfl⟩

end ScriptLang
