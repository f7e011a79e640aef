import Mathlib.Data.List.Dedup
import Mathlib.Data.List.Perm.Subperm
import ScriptLang.Proofs.Journals

/-!
# The loader of modules

A small machine for what an interpreter does with imports, apart from everything that the imported
files do. Its state is the list of files being imported, the record of what imports gave, and the
file that ran to its end and waits to be recorded, if there is one.

* `Loader.Step` are its steps, one for each event. A file is begun only if the host reported it, it
  is not being imported already and it is not recorded; a key is recorded once.
* `Loader.Reached` says of a journal that its entries are steps of a loader from its empty state,
  each with the state that the loader is in afterwards.
* `Loader.Sound` is the invariant, with `Loader.Sound.step` for one step and `Loader.Reached.sound`
  for a run.
* `ImportLog` is what a reader of the journal is told (`Loader.Reached.importLog`): at every moment
  no file is being imported twice, nothing that is being imported is recorded and no more files are
  being imported than the host reported; no file runs to its end twice; and imports under one name
  or path give one value.

That the journal of a machine is such a run is the subject of `Proofs.LoaderRuns`.
-/

namespace ScriptLang

/-- What is known of imports. -/
structure Loader where
  /-- The files being imported, the innermost first. -/
  loading : List String := []
  /-- What imports gave, by name or path, the latest first. -/
  record : List (String × Value) := []
  /-- The file that ran to its end and is not recorded yet. -/
  pending : Option String := none

namespace Loader

/-- The names and paths that are recorded. -/
def keys (l : Loader) : List String := l.record.map (·.1)

/-- The steps of a loader that has been through the events of a journal. -/
inductive Step (j : List JournalEntry) : Loader → Event → Loader → Prop where
  | probed {l : Loader} {path : String} {found : Bool} : Step j l (.probed path found) l
  | sought {l : Loader} {loc : Location} {path : String} {tried : List String} :
      Step j l (.sought loc path tried) l
  | began {l : Loader} {path : String} :
      path ∈ reportedPaths j → path ∉ l.loading → path ∉ l.keys → l.pending = none →
      Step j l (.began path) { l with loading := path :: l.loading }
  | completed {l : Loader} {path : String} :
      path ∈ l.loading → l.pending = none →
      Step j l (.completed path) { l with pending := some path }
  | ended {l : Loader} {path : String} {loading : List String} : l.loading = path :: loading →
      Step j l (.ended path) { l with loading := loading }
  | recorded {l : Loader} {key : String} {v : Value} :
      key ∉ l.loading → key ∉ l.keys → l.pending = none ∨ l.pending = some key →
      Step j l (.recorded key) { l with record := (key, v) :: l.record, pending := none }
  | gave {l : Loader} {key : String} {v : Value} : (key, v) ∈ l.record →
      Step j l (.gave key v) l

/-- **Reached.** The entries of the journal are the steps of a loader up to the given state. An
entry tells the files being imported and what is recorded after its event. -/
inductive Reached : List JournalEntry → Loader → Prop where
  | start : Reached [] {}
  | step {j : List JournalEntry} {e : JournalEntry} {l l' : Loader} :
      Reached j l → Step j l e.event l' → e.loading = l'.loading → e.recorded = l'.keys →
      Reached (e :: j) l'

/-! ### The invariant -/

/-- **Sound.** What holds of a loader that went through the events of a journal. -/
structure Sound (j : List JournalEntry) (l : Loader) : Prop where
  /-- No file is being imported within its own import. -/
  loading : l.loading.Nodup
  keys : l.keys.Nodup
  /-- What is being imported is not recorded. -/
  disjoint : ∀ key ∈ l.keys, key ∉ l.loading
  /-- What is being imported was reported by the host. -/
  reported : l.loading ⊆ reportedPaths j
  completed : (completedFiles j).Nodup
  /-- A file that ran to its end is recorded, or about to be. -/
  kept : ∀ path ∈ completedFiles j, path ∈ l.keys ∨ l.pending = some path
  waiting : ∀ path, l.pending = some path → path ∉ l.keys
  /-- What an import gave is what is recorded. -/
  answers : ∀ answer ∈ importAnswers j, answer ∈ l.record

variable {j : List JournalEntry} {e : JournalEntry} {l l' : Loader}

theorem sound_start : Sound [] {} where
  loading := List.nodup_nil
  keys := List.nodup_nil
  disjoint := by simp [Loader.keys]
  reported := List.nil_subset _
  completed := List.nodup_nil
  kept := by simp [completedFiles]
  waiting := by simp
  answers := by simp [importAnswers]

/-- A file that is being imported has not run to its end before, if nothing is pending. -/
theorem Sound.not_completed (h : Sound j l) {path : String} (hp : path ∈ l.loading)
    (hn : l.pending = none) : path ∉ completedFiles j := by
  intro hc
  rcases h.kept path hc with hk | hk
  · exact h.disjoint path hk hp
  · rw [hn] at hk
    cases hk

/-- Two values under one key are the same. -/
theorem Sound.single (h : Sound j l) {key : String} {v v' : Value} (hv : (key, v) ∈ l.record)
    (hv' : (key, v') ∈ l.record) : v = v' := by
  have he : (key, v) = (key, v') := List.inj_on_of_nodup_map h.keys hv hv' rfl
  exact (Prod.mk.inj he).2

theorem reportedPaths_subset_cons (e : JournalEntry) (j : List JournalEntry) :
    reportedPaths j ⊆ reportedPaths (e :: j) := by
  rw [reportedPaths_cons]
  exact List.subset_append_right _ _

/-- An event at which no file ran to its end and no import gave a value says nothing new, as long as
the state of the loader stays. -/
theorem Sound.silent (h : Sound j l) (hc : e.event.completed? = none)
    (ha : e.event.answer? = none) : Sound (e :: j) l where
  loading := h.loading
  keys := h.keys
  disjoint := h.disjoint
  reported := List.Subset.trans h.reported (reportedPaths_subset_cons e j)
  completed := by simpa [hc] using h.completed
  kept := by simpa [hc] using h.kept
  waiting := h.waiting
  answers := by simpa [ha] using h.answers

/-- **One step.** It keeps the invariant. -/
theorem Sound.step (h : Sound j l) (hs : Step j l e.event l') : Sound (e :: j) l' := by
  have hreported := reportedPaths_subset_cons e j
  generalize he : e.event = event at hs
  -- Questions to the host and searches leave the loader alone; every other step moves one part of
  -- it, whose clauses are shown anew.
  cases hs with
  | probed => exact h.silent (by simp [he, Event.completed?]) (by simp [he, Event.answer?])
  | sought => exact h.silent (by simp [he, Event.completed?]) (by simp [he, Event.answer?])
  | began hr hl hk hp =>
    have hs : Sound (e :: j) l :=
      h.silent (by simp [he, Event.completed?]) (by simp [he, Event.answer?])
    refine { hs with loading := ?_, disjoint := ?_, reported := ?_ }
    · exact List.nodup_cons.mpr ⟨hl, h.loading⟩
    · intro key hkey hmem
      rcases List.mem_cons.mp hmem with rfl | hmem
      · exact hk hkey
      · exact h.disjoint key hkey hmem
    · exact List.cons_subset.mpr ⟨hreported hr, hs.reported⟩
  | @completed path hl hp =>
    refine { h with
      reported := List.Subset.trans h.reported hreported, completed := ?_, kept := ?_,
      waiting := ?_, answers := ?_ }
    · simpa [he, Event.completed?] using ⟨h.not_completed hl hp, h.completed⟩
    · intro path' hp'
      simp only [completedFiles_cons, he, Event.completed?, Option.toList_some,
        List.cons_append, List.nil_append, List.mem_cons] at hp'
      rcases hp' with rfl | hp'
      · exact .inr rfl
      · -- Nothing was pending, so whatever ran to its end before is recorded.
        rcases h.kept path' hp' with hk | hk
        · exact .inl hk
        · rw [hp] at hk
          cases hk
    -- The file is still being imported, thus not recorded.
    · rintro _ ⟨⟩ hk
      exact h.disjoint path hk hl
    · simpa [he, Event.answer?] using h.answers
  | @ended path loading hl =>
    have hs : Sound (e :: j) l :=
      h.silent (by simp [he, Event.completed?]) (by simp [he, Event.answer?])
    have hsub : loading ⊆ l.loading := hl ▸ List.subset_cons_self path loading
    refine { hs with loading := ?_, disjoint := ?_, reported := List.Subset.trans hsub hs.reported }
    · exact (List.nodup_cons.mp (hl ▸ h.loading)).2
    · exact fun key hk hmem => h.disjoint key hk (hsub hmem)
  | @recorded key v hl hk hp =>
    have hs : Sound (e :: j) l :=
      h.silent (by simp [he, Event.completed?]) (by simp [he, Event.answer?])
    refine { hs with keys := ?_, disjoint := ?_, kept := ?_, waiting := by simp, answers := ?_ }
    · exact List.nodup_cons.mpr ⟨hk, h.keys⟩
    · intro key' hkey'
      rcases List.mem_cons.mp hkey' with rfl | hkey'
      · exact hl
      · exact h.disjoint key' hkey'
    · -- What was pending is what is recorded now.
      intro path hpath
      rcases hs.kept path hpath with hkept | hpending
      · exact .inl (List.mem_cons_of_mem _ hkept)
      · rcases hp with hp | hp
        · rw [hp] at hpending
          cases hpending
        · rw [hp] at hpending
          cases hpending
          exact .inl List.mem_cons_self
    · exact fun answer ha => List.mem_cons_of_mem _ (hs.answers answer ha)
  | @gave key v hv =>
    refine { h with
      reported := List.Subset.trans h.reported hreported, completed := ?_, kept := ?_,
      answers := ?_ }
    · simpa [he, Event.completed?] using h.completed
    · simpa [he, Event.completed?] using h.kept
    · intro answer ha
      simp only [importAnswers_cons, he, Event.answer?, Option.toList_some, List.cons_append,
        List.nil_append, List.mem_cons] at ha
      rcases ha with rfl | ha
      · exact hv
      · exact h.answers answer ha

/-- **A run.** Its loader is sound. -/
theorem Reached.sound (h : Reached j l) : Sound j l := by
  -- On the run; the invariant is that of `Sound`.
  induction h with
  | start => exact sound_start
  | step _ hs _ _ ih => exact ih.step hs

/-- Every moment of a run is the end of a run. -/
theorem Reached.earlier {later : List JournalEntry} (h : Reached (later ++ j) l) :
    ∃ l', Reached j l' := by
  induction later generalizing l with
  | nil => exact ⟨l, h⟩
  | cons e later ih =>
    cases h with
    | step h _ _ _ => exact ih h

end Loader

/-! ### What the journal tells -/

/-- What an entry tells of imports, given the paths that the host reported until then. -/
structure JournalEntry.Sound (e : JournalEntry) (paths : List String) : Prop where
  loading : e.loading.Nodup
  recorded : e.recorded.Nodup
  disjoint : ∀ key ∈ e.recorded, key ∉ e.loading
  reported : e.loading ⊆ paths
  /-- Imports are nested at most as deeply as there are paths that the host reported. -/
  depth : e.loading.length ≤ paths.dedup.length

/-- **The import log.** A journal is in order. -/
structure ImportLog (j : List JournalEntry) : Prop where
  moments : ∀ later e earlier, j = later ++ e :: earlier →
    e.Sound (reportedPaths (e :: earlier))
  /-- No file runs to its end twice. -/
  completed : (completedFiles j).Nodup
  /-- Imports of one name or path give one value. -/
  answers : ∀ key v v', (key, v) ∈ importAnswers j → (key, v') ∈ importAnswers j → v = v'

/-- Distinct members of a list are no more than its distinct members. -/
private theorem length_le_dedup {xs ys : List String} (hx : xs.Nodup) (h : xs ⊆ ys) :
    xs.length ≤ ys.dedup.length :=
  (hx.subperm fun _ hm => List.mem_dedup.mpr (h hm)).length_le

/-- The entry of the last event shows the loader. -/
theorem Loader.Reached.entry_sound {e : JournalEntry} {j : List JournalEntry} {l : Loader}
    (h : Reached (e :: j) l) : e.Sound (reportedPaths (e :: j)) := by
  have hs := h.sound
  cases h with
  | step _ _ hl hr =>
    refine ⟨hl ▸ hs.loading, hr ▸ hs.keys, ?_, hl ▸ hs.reported, ?_⟩
    · rw [hl, hr]
      exact hs.disjoint
    · rw [hl]
      exact length_le_dedup hs.loading hs.reported

theorem Loader.Reached.importLog {j : List JournalEntry} {l : Loader} (h : Reached j l) :
    ImportLog j where
  moments later e earlier hj := by
    subst hj
    obtain ⟨l', h'⟩ := h.earlier
    exact h'.entry_sound
  completed := h.sound.completed
  answers _ _ _ hv hv' := h.sound.single (h.sound.answers _ hv) (h.sound.answers _ hv')

end ScriptLang
