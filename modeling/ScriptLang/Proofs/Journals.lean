import ScriptLang.Eval.Machine

/-!
# What a journal tells

Readings of a journal, which lists what happened with the latest first: the paths that the host
reported, the files whose import began, those that ran to their end and the answers of imports. Each
is a list that a new entry extends at its front, if the entry is of that kind.
-/

namespace ScriptLang

namespace Event

/-- The path that the host said something is at. -/
def reported? : Event → Option String
  | .probed path true => some path
  | _ => none

/-- The file whose import began. -/
def began? : Event → Option String
  | .began path => some path
  | _ => none

/-- The file whose statements ran to their end. -/
def completed? : Event → Option String
  | .completed path => some path
  | _ => none

/-- What an import gave, under which name or path. -/
def answer? : Event → Option (String × Value)
  | .gave key v => some (key, v)
  | _ => none

end Event

/-- The paths that the host said something is at. -/
def reportedPaths (j : List JournalEntry) : List String := j.filterMap (·.event.reported?)

/-- The files whose import began. -/
def begunFiles (j : List JournalEntry) : List String := j.filterMap (·.event.began?)

/-- The files whose statements ran to their end. -/
def completedFiles (j : List JournalEntry) : List String := j.filterMap (·.event.completed?)

/-- What imports gave. -/
def importAnswers (j : List JournalEntry) : List (String × Value) := j.filterMap (·.event.answer?)

section Cons

variable (e : JournalEntry) (j : List JournalEntry)

@[simp] theorem reportedPaths_cons :
    reportedPaths (e :: j) = e.event.reported?.toList ++ reportedPaths j := by
  cases h : e.event.reported? <;> simp [reportedPaths, h]

@[simp] theorem begunFiles_cons :
    begunFiles (e :: j) = e.event.began?.toList ++ begunFiles j := by
  cases h : e.event.began? <;> simp [begunFiles, h]

@[simp] theorem completedFiles_cons :
    completedFiles (e :: j) = e.event.completed?.toList ++ completedFiles j := by
  cases h : e.event.completed? <;> simp [completedFiles, h]

@[simp] theorem importAnswers_cons :
    importAnswers (e :: j) = e.event.answer?.toList ++ importAnswers j := by
  cases h : e.event.answer? <;> simp [importAnswers, h]

end Cons

namespace Machine

/-- The journal of a machine. -/
noncomputable def log (m : Machine) : List JournalEntry := m.journal.val

/-- The names and paths whose import is recorded. -/
def recorded (m : Machine) : List String := m.modules.map (·.1)

/-- The entry for an event that happens now. -/
noncomputable def entry (m : Machine) (e : Event) : JournalEntry :=
  ⟨e, m.context.file, m.context.within.val, m.context.loading, m.recorded⟩

@[simp] theorem log_after (m : Machine) (e : Event) : (m.after e).log = m.entry e :: m.log := by
  simp [log, after, entry, recorded]

@[simp] theorem context_after (m : Machine) (e : Event) : (m.after e).context = m.context := rfl

@[simp] theorem modules_after (m : Machine) (e : Event) : (m.after e).modules = m.modules := rfl

@[simp] theorem host_after (m : Machine) (e : Event) : (m.after e).host = m.host := rfl

@[simp] theorem scopes_after (m : Machine) (e : Event) : (m.after e).scopes = m.scopes := rfl

@[simp] theorem event_entry (m : Machine) (e : Event) : (m.entry e).event = e := rfl

theorem log_congr {m m' : Machine} (h : m'.journal = m.journal) : m'.log = m.log := by
  rw [log, h, log]

end Machine

end ScriptLang
