import ScriptLang.Host.Basic

/-!
# The path rules of a host stay

A host changes when files are written, requests are sent or questions are asked. Its rules for
reading paths do not: those of a process and of a sandbox come from the working directory, which no
operation moves, and those of any other host are part of what it is.

Main statements:

* `Host.paths_write`, `Host.paths_makeDirectory`, `Host.paths_removeFile` and
  `Host.paths_removeDirectory` — an operation that gives a changed host gives one with the same
  rules;
* `Host.paths_asked`, `Host.paths_fetch` and `Host.paths_leave` — so do the operations that answer
  in another form.
-/

namespace ScriptLang

/-- Two steps that succeed, the second one with the result of the first. -/
theorem exists_ok_of_bind {ε α β : Type} {x : Except ε α} {f : α → Except ε β} {b : β}
    (h : x >>= f = .ok b) : ∃ a, x = .ok a ∧ f a = .ok b := by
  cases x with
  | error e => cases h
  | ok a => exact ⟨a, rfl, h⟩

/-- A result that went through a function. -/
theorem exists_ok_of_map {ε α β : Type} {x : Except ε α} {f : α → β} {b : β}
    (h : x.map f = .ok b) : ∃ a, x = .ok a ∧ f a = b := by
  cases x with
  | error e => cases h
  | ok a => exact ⟨a, rfl, by cases h; rfl⟩

/-! ### The working directory of a process -/

namespace Workspace

variable {w w' : Workspace} {path text : String}

theorem cwd_write (h : w.write path text = .ok w') : w'.cwd = w.cwd := by
  obtain ⟨place, -, h⟩ := exists_ok_of_bind h
  -- What stands at the place decides only whether there is an error.
  cases hn : w.node? place with
  | none =>
    rw [hn] at h
    dsimp only at h
    split at h <;> cases h
    rfl
  | some node =>
    rw [hn] at h
    cases node with
    | directory => cases h
    | file old =>
      dsimp only at h
      split at h <;> cases h
      rfl

theorem cwd_makeDirectory (h : w.makeDirectory path = .ok w') : w'.cwd = w.cwd := by
  obtain ⟨place, -, h⟩ := exists_ok_of_bind h
  dsimp only at h
  split at h <;> cases h
  rfl

theorem cwd_makeAll {done names : List String} (h : w.makeAll done names = .ok w') :
    w'.cwd = w.cwd := by
  induction w, done, names using makeAll.induct with
  | case1 w done => cases h; rfl
  | case2 w done rest ih => rw [makeAll, if_pos rfl] at h; exact ih h
  | case3 w done rest hne ih => rw [makeAll, if_neg hne, if_pos rfl] at h; exact ih h
  | case4 w done name rest h₁ h₂ here hn ih =>
    rw [makeAll, if_neg h₁, if_neg h₂] at h
    simp only [hn, here] at h ih
    exact ih h
  | case5 w done name rest h₁ h₂ here text hn =>
    rw [makeAll, if_neg h₁, if_neg h₂] at h
    simp only [hn, here] at h
    cases h
  | case6 w done name rest h₁ h₂ here hn ih =>
    rw [makeAll, if_neg h₁, if_neg h₂] at h
    simp only [hn, here] at h ih
    exact ih h

theorem cwd_makeDirectories (h : w.makeDirectories path = .ok w') : w'.cwd = w.cwd := by
  unfold makeDirectories at h
  split at h
  · cases h; rfl
  · exact cwd_makeAll h

theorem cwd_removeFile (h : w.removeFile path = .ok w') : w'.cwd = w.cwd := by
  obtain ⟨⟨place, node⟩, -, h⟩ := exists_ok_of_bind h
  cases node <;> cases h
  rfl

theorem cwd_removeDirectory (h : w.removeDirectory path = .ok w') : w'.cwd = w.cwd := by
  obtain ⟨⟨place, node⟩, -, h⟩ := exists_ok_of_bind h
  cases node with
  | file text => cases h
  | directory =>
    dsimp only at h
    split at h
    · cases h
    · split at h <;> cases h
      rfl

theorem cwd_removeTree (h : w.removeTree path = .ok w') : w'.cwd = w.cwd := by
  obtain ⟨⟨place, node⟩, -, h⟩ := exists_ok_of_bind h
  cases node <;> cases h
  rfl

end Workspace

/-! ### Hosts -/

namespace Host

variable {h h' : Host} {path : String}

/-- A process that an operation of the system changed without moving it. -/
private theorem paths_process {w : Workspace} {x : Except SystemFault Workspace}
    (hx : ∀ w', x = .ok w' → w'.cwd = w.cwd) (hr : (ofSystem x).map process = .ok h') :
    h'.paths = (process w).paths := by
  obtain ⟨w', hw, rfl⟩ := exists_ok_of_map hr
  cases x with
  | error e => cases hw
  | ok w'' =>
    cases hw
    exact congrArg PathRules.posix (hx w' rfl)

/-- A host given by its answers at the next moment, if it agreed to a change. -/
private theorem paths_foreign {f : ForeignHost} {x : Except HostFailure Unit}
    (hr : (x.map fun _ => foreign f.next) = .ok h') : h'.paths = (foreign f).paths := by
  obtain ⟨_, -, rfl⟩ := exists_ok_of_map hr
  rfl

theorem paths_write {text : String} (hr : h.write path text = .ok h') : h'.paths = h.paths := by
  cases h with
  | denied => cases hr
  | sandbox s => cases hr; rfl
  | process w => exact paths_process (fun _ => Workspace.cwd_write) hr
  | foreign f => exact paths_foreign hr

theorem paths_makeDirectory {recursive : Bool} (hr : h.makeDirectory path recursive = .ok h') :
    h'.paths = h.paths := by
  cases h with
  | denied => cases hr
  | sandbox s =>
    obtain ⟨s', hs, rfl⟩ := exists_ok_of_map hr
    unfold Sandbox.makeDirectory at hs
    dsimp only at hs
    split at hs <;> cases hs
    rfl
  | process w =>
    cases recursive with
    | true => exact paths_process (fun _ => Workspace.cwd_makeDirectories) hr
    | false => exact paths_process (fun _ => Workspace.cwd_makeDirectory) hr
  | foreign f => exact paths_foreign hr

theorem paths_removeFile (hr : h.removeFile path = .ok h') : h'.paths = h.paths := by
  cases h with
  | denied => cases hr
  | sandbox s =>
    obtain ⟨s', hs, rfl⟩ := exists_ok_of_map hr
    unfold Sandbox.removeFile at hs
    split at hs <;> cases hs
    rfl
  | process w => exact paths_process (fun _ => Workspace.cwd_removeFile) hr
  | foreign f => exact paths_foreign hr

theorem paths_removeDirectory {recursive : Bool}
    (hr : h.removeDirectory path recursive = .ok h') : h'.paths = h.paths := by
  cases h with
  | denied => cases hr
  | sandbox s =>
    obtain ⟨s', hs, rfl⟩ := exists_ok_of_map hr
    unfold Sandbox.removeDirectory at hs
    split at hs
    · cases hs
    · split at hs <;> cases hs
      rfl
  | process w =>
    cases recursive with
    | true => exact paths_process (fun _ => Workspace.cwd_removeTree) hr
    | false => exact paths_process (fun _ => Workspace.cwd_removeDirectory) hr
  | foreign f => exact paths_foreign hr

@[simp] theorem paths_asked (h : Host) : h.asked.paths = h.paths := by
  cases h <;> rfl

@[simp] theorem paths_fetch (h : Host) (r : WebRequest) : (h.fetch r).2.paths = h.paths := by
  cases h <;> rfl

theorem paths_leave {code : Int} (hr : h.leave code = .noted h') : h'.paths = h.paths := by
  cases h with
  | denied => cases hr
  | sandbox s => cases hr; rfl
  | process w => cases hr
  | foreign f =>
    unfold leave at hr
    dsimp only at hr
    split at hr <;> cases hr
    rfl

end Host

end ScriptLang
