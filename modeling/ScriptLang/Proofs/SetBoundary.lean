import Mathlib.Data.List.Permutation
import ScriptLang.Proofs.ScopeHistory

/-!
# Where the word `set` looks

The word `set` looks for a name from the current scope outward, and no further than the scope of the
file. What it finds it changes, unless it is a constant; if it finds nothing, it makes a binding in
the current scope, whatever scopes further out may have.

* `Scopes.Segment` — the scopes that are looked at. Every scope of a forest that operations have
  made has exactly one segment, since chains of scopes go downward in the table and end at a file
  (`Scopes.Rooted`).
* `Scopes.Nearest` — the scope of a segment that binds a name first.
* `Scopes.Puts` — what a table has become by one binding.
* `set_stops_at_file` is the main statement.

The three searches for a name stop at different places: at the file, at the root, or at once. All
that is needed of them is what each finds along a segment (`Scopes.findInFile?_segment`,
`Scopes.find?_of_nearest`).
-/

namespace ScriptLang

namespace Scopes

variable {t t' : Scopes} {id p s : ScopeId} {name : String} {v : Value} {b : Binding}
  {k : DeclKind} {B B' : List ScopeId}

/-! ### Chains of scopes -/

/-- **Rooted.** A parent stands before its children, and only the scope of a file has none. -/
structure Rooted (t : Scopes) : Prop where
  parent : ∀ id p, (t.get id).parent = some p → p < id
  top : ∀ id, (t.get id).parent = none → (t.get id).role.isBoundary = true

theorem rooted_initial : Scopes.initial.Rooted := by
  have hget (id : ScopeId) : Scopes.initial.get id = {} := by cases id <;> rfl
  refine ⟨fun id p hp => ?_, fun id _ => ?_⟩
  · rw [hget] at hp
    cases hp
  · rw [hget]
    rfl

/-- A table in which every scope has its parent and its role. -/
theorem Rooted.of_frame (ht : t.Rooted)
    (h : ∀ id, (t'.get id).parent = (t.get id).parent ∧ (t'.get id).role = (t.get id).role) :
    t'.Rooted := by
  refine ⟨fun id p hp => ht.parent id p ((h id).1 ▸ hp), fun id hp => ?_⟩
  rw [(h id).2]
  exact ht.top id ((h id).1 ▸ hp)

/-- A write changes the bindings of a scope alone. -/
theorem frame_perform (t : Scopes) (w : ScopeWrite) (id : ScopeId) :
    ((t.perform w).get id).parent = (t.get id).parent ∧
      ((t.perform w).get id).role = (t.get id).role := by
  cases w <;> dsimp only [perform, bind, update] <;> rw [get_modify] <;> split <;> exact ⟨rfl, rfl⟩

/-- A new scope. -/
theorem get_child_size (t : Scopes) (parent : ScopeId) (role : ScopeRole) :
    (t.child parent role).2.get t.table.size = { parent := some parent, role := role } := by
  simp [child, get]

theorem get_of_size_le (h : t.table.size ≤ id) : t.get id = {} := by
  simp [get, Array.getElem?_eq_none h]

theorem Rooted.child (ht : t.Rooted) (hp : p < t.table.size) (role : ScopeRole) :
    (t.child p role).2.Rooted := by
  -- The scopes before the new one are as they were, and behind it there is none.
  have hcases (id : ScopeId) : (t.child p role).2.get id = t.get id ∨
      id = t.table.size ∧ (t.child p role).2.get id = { parent := some p, role := role } := by
    rcases Nat.lt_trichotomy id t.table.size with hid | rfl | hid
    · exact .inl (get_child hid)
    · exact .inr ⟨rfl, get_child_size t p role⟩
    · refine .inl ?_
      rw [get_of_size_le (Nat.le_of_lt hid), get_of_size_le]
      simpa [Scopes.child, Nat.succ_le_iff] using hid
  refine ⟨fun id q hq => ?_, fun id hq => ?_⟩
  · rcases hcases id with h | ⟨rfl, h⟩
    · exact ht.parent id q (h ▸ hq)
    · rw [h] at hq
      cases hq
      exact hp
  · rcases hcases id with h | ⟨rfl, h⟩
    · rw [h] at hq ⊢
      exact ht.top id hq
    · rw [h] at hq
      cases hq

/-- **Step.** An operation on a scope that exists keeps chains as they are. -/
theorem Rooted.after (ht : t.Rooted) {op : ScopeOp} (hop : op.scope < t.table.size) :
    (t.after op).Rooted := by
  cases h : op.run t with
  | error e => rwa [after_of_error h]
  | ok t' =>
    unfold Scopes.after
    rw [h]
    cases op with
    | child id role =>
      cases h
      exact ht.child hop role
    | define id name v kind =>
      obtain ⟨w, _, rfl⟩ := map_perform h
      exact ht.of_frame (frame_perform t w)
    | assign id name v =>
      obtain ⟨w, _, rfl⟩ := map_perform h
      exact ht.of_frame (frame_perform t w)
    | setVariable id name v =>
      obtain ⟨w, _, rfl⟩ := map_perform h
      exact ht.of_frame (frame_perform t w)

/-- **Run.** -/
theorem Leads.rooted (h : t.Leads t') (ht : t.Rooted) : t'.Rooted := by
  induction h with
  | refl => exact ht
  | step op _ hop ih => exact ih.after hop

/-! ### Segments -/

/-- **Segment.** The scopes from one outward, up to and including the first one that is the scope of
a file. -/
inductive Segment (t : Scopes) : ScopeId → List ScopeId → Prop
  | file {i : ScopeId} (hb : (t.get i).role.isBoundary = true) : Segment t i [i]
  | inner {i j : ScopeId} {S : List ScopeId} (hb : (t.get i).role.isBoundary = false)
    (hp : (t.get i).parent = some j) (h : Segment t j S) : Segment t i (i :: S)

/-- By induction on the place, since a parent stands before its children. -/
theorem Rooted.segment (ht : t.Rooted) (id : ScopeId) : ∃ B, t.Segment id B := by
  induction id using Nat.strongRecOn with
  | ind id ih =>
    cases hb : (t.get id).role.isBoundary with
    | true => exact ⟨[id], .file hb⟩
    | false =>
      cases hp : (t.get id).parent with
      | none =>
        rw [ht.top id hp] at hb
        cases hb
      | some p =>
        obtain ⟨B, hB⟩ := ih p (ht.parent id p hp)
        exact ⟨id :: B, .inner hb hp hB⟩

theorem Segment.unique (h : t.Segment id B) (h' : t.Segment id B') : B' = B := by
  induction h generalizing B' with
  | file hb =>
    cases h' with
    | file _ => rfl
    | inner hb' _ _ =>
      rw [hb] at hb'
      cases hb'
  | inner hb hp _ ih =>
    cases h' with
    | file hb' =>
      rw [hb] at hb'
      cases hb'
    | inner _ hp' h' =>
      rw [hp] at hp'
      cases hp'
      rw [ih h']

/-- Segments only depend on parents and roles. -/
theorem Segment.of_frame (h : t.Segment id B)
    (hf : ∀ id, (t'.get id).parent = (t.get id).parent ∧ (t'.get id).role = (t.get id).role) :
    t'.Segment id B := by
  induction h with
  | file hb => exact .file ((hf _).2 ▸ hb)
  | inner hb hp _ ih => exact .inner ((hf _).2 ▸ hb) ((hf _).1 ▸ hp) ih

theorem Segment.head_mem (h : t.Segment id B) : id ∈ B := by
  cases h <;> exact List.mem_cons_self

/-! ### Searches -/

/-- **Nearest.** The first of some scopes that binds a name, and its binding. -/
structure Nearest (t : Scopes) (B : List ScopeId) (name : String) (s : ScopeId) (b : Binding) :
    Prop where
  bound : (t.get s).vars.get? name = some b
  first : ∃ before after, B = before ++ s :: after ∧
    ∀ i ∈ before, (t.get i).vars.get? name = none

/-- The first binding of a name in some scopes. -/
def firstOf? (t : Scopes) (B : List ScopeId) (name : String) : Option (ScopeId × Binding) :=
  B.findSome? fun s => ((t.get s).vars.get? name).map (s, ·)

theorem firstOf?_eq_some_iff : t.firstOf? B name = some (s, b) ↔ t.Nearest B name s b := by
  unfold firstOf?
  rw [List.findSome?_eq_some_iff]
  constructor
  · rintro ⟨before, i, after, hB, hi, hfirst⟩
    simp only [Option.map_eq_some_iff, Prod.mk.injEq] at hi
    obtain ⟨b', hb', rfl, rfl⟩ := hi
    exact ⟨hb', before, after, hB, fun j hj => by simpa using hfirst j hj⟩
  · rintro ⟨hb, before, after, hB, hfirst⟩
    exact ⟨before, s, after, hB, by simp [hb], fun j hj => by simp [hfirst j hj]⟩

theorem firstOf?_eq_none_iff :
    t.firstOf? B name = none ↔ ∀ s ∈ B, (t.get s).vars.get? name = none := by
  simp [firstOf?]

/-- The search of the word `set` looks at the scopes of the segment. -/
theorem findInFile?_segment (ht : t.Rooted) (h : t.Segment id B) :
    t.findInFile? name id = t.firstOf? B name := by
  induction h with
  | @file id hb =>
    rw [findInFile?]
    cases hn : (t.get id).vars.get? name with
    | some b => simp [firstOf?, hn]
    | none => simp [firstOf?, hn, hb]
  | @inner id p S hb hp _ ih =>
    rw [findInFile?]
    cases hn : (t.get id).vars.get? name with
    | some b => simp [firstOf?, hn]
    | none =>
      have hskip : t.firstOf? (id :: S) name = t.firstOf? S name := by simp [firstOf?, hn]
      simp only [hb, hp, ht.parent id p hp, if_true, Bool.false_eq_true, if_false]
      rw [ih, hskip]

/-- The search of all scopes around goes through the segment first. -/
theorem find?_of_nearest (ht : t.Rooted) (h : t.Segment id B) (hn : t.Nearest B name s b) :
    t.find? name id = some (s, b) := by
  rw [← firstOf?_eq_some_iff] at hn
  induction h with
  | @file id hb =>
    rw [find?]
    cases hv : (t.get id).vars.get? name with
    | some b' => simpa [firstOf?, hv] using hn
    | none => simp [firstOf?, hv] at hn
  | @inner id p S hb hp _ ih =>
    rw [find?]
    cases hv : (t.get id).vars.get? name with
    | some b' => simpa [firstOf?, hv] using hn
    | none =>
      simp only [hp, ht.parent id p hp, if_true]
      exact ih (by simpa [firstOf?, hv] using hn)

/-! ### One binding -/

/-- **Puts.** The second table is the first one but for the binding of one name in one scope: a name
that the scope has keeps its place, another one comes after those that it has. -/
structure Puts (t t' : Scopes) (s : ScopeId) (name : String) (b : Binding) : Prop where
  size : t'.table.size = t.table.size
  elsewhere : ∀ i, i ≠ s → t'.get i = t.get i
  parent : (t'.get s).parent = (t.get s).parent
  role : (t'.get s).role = (t.get s).role
  here : (t'.get s).vars.get? name = some b
  others : ∀ n, n ≠ name → (t'.get s).vars.get? n = (t.get s).vars.get? n
  keys : (t'.get s).vars.keys =
    if name ∈ (t.get s).vars.keys then (t.get s).vars.keys else (t.get s).vars.keys ++ [name]

theorem Puts.frame (h : t.Puts t' s name b) (id : ScopeId) :
    (t'.get id).parent = (t.get id).parent ∧ (t'.get id).role = (t.get id).role := by
  by_cases hid : id = s
  · subst hid
    exact ⟨h.parent, h.role⟩
  · rw [h.elsewhere id hid]
    exact ⟨rfl, rfl⟩

/-- A scope that has a name exists. -/
theorem lt_size_of_get? (h : (t.get s).vars.get? name = some b) : s < t.table.size := by
  by_contra hs
  rw [get_of_size_le (Nat.le_of_not_lt hs)] at h
  cases (OrderedMap.get?_empty name).symm.trans h

theorem get_modify_self {f : Scope → Scope} (hs : s < t.table.size) :
    (Scopes.mk (t.table.modify s f)).get s = f (t.get s) := by
  rw [get_modify, if_pos ⟨rfl, hs⟩]

theorem get_modify_of_ne {f : Scope → Scope} {i : ScopeId} (hi : i ≠ s) :
    (Scopes.mk (t.table.modify s f)).get i = t.get i := by
  rw [get_modify, if_neg fun h => hi h.1.symm]

/-- Another value for a binding. -/
theorem puts_update (hb : (t.get s).vars.get? name = some b) :
    t.Puts (t.update s name v) s name { b with value := v } := by
  have hs := lt_size_of_get? hb
  have hself : (t.update s name v).get s = { t.get s with
      vars := (t.get s).vars.modify name fun b => { b with value := v } } := get_modify_self hs
  refine ⟨by simp [update], fun i hi => get_modify_of_ne hi, ?_, ?_, ?_, fun n hn => ?_, ?_⟩
  · rw [hself]
  · rw [hself]
  · rw [hself, OrderedMap.get?_modify, if_pos rfl, hb, Option.map_some]
  · rw [hself, OrderedMap.get?_modify, if_neg hn]
  · rw [hself, OrderedMap.keys_modify, if_pos]
    rw [← OrderedMap.isSome_get?_iff, hb, Option.isSome_some]

/-- A binding of a name that the scope does not have. -/
theorem puts_bind (hs : s < t.table.size) (hn : (t.get s).vars.get? name = none) :
    t.Puts (t.bind s name b) s name b := by
  have hself : (t.bind s name b).get s =
      { t.get s with vars := (t.get s).vars.insert name b } := get_modify_self hs
  refine ⟨by simp [bind], fun i hi => get_modify_of_ne hi, ?_, ?_, ?_, fun n hn => ?_, ?_⟩
  · rw [hself]
  · rw [hself]
  · rw [hself, OrderedMap.get?_insert, if_pos rfl]
  · rw [hself, OrderedMap.get?_insert, if_neg hn]
  · rw [hself, OrderedMap.keys_insert, OrderedMap.isSome_index, if_neg, if_neg]
    · rw [← OrderedMap.isSome_get?_iff, hn]
      exact nofun
    · rw [hn]
      exact nofun

/-! ### The word `set` -/

theorem setVariable_eq (t : Scopes) (id : ScopeId) (name : String) (v : Value) :
    t.setVariable id name v = (t.planSet id name v).map t.perform := rfl

/-- A constant is refused. -/
theorem setVariable_constant (ht : t.Rooted) (h : t.Segment id B) (hn : t.Nearest B name s b)
    (hc : b.kind = .const) : t.setVariable id name v = .error .constant := by
  have hfind := (findInFile?_segment ht h).trans (firstOf?_eq_some_iff.mpr hn)
  rw [setVariable_eq, planSet, hfind]
  simp [planOverwrite, hc, Except.map]

/-- Another binding gets the value. -/
theorem setVariable_found (ht : t.Rooted) (h : t.Segment id B) (hn : t.Nearest B name s b)
    (hc : b.kind ≠ .const) : t.setVariable id name v = .ok (t.update s name v) := by
  have hfind := (findInFile?_segment ht h).trans (firstOf?_eq_some_iff.mpr hn)
  rw [setVariable_eq, planSet, hfind]
  simp [planOverwrite, hc, Except.map, perform]

/-- A name that the segment does not have becomes one of the current scope. -/
theorem setVariable_new (ht : t.Rooted) (h : t.Segment id B)
    (hn : ∀ s ∈ B, (t.get s).vars.get? name = none) :
    t.setVariable id name v = .ok (t.bind id name ⟨v, .set⟩) := by
  have hfind := (findInFile?_segment ht h).trans (firstOf?_eq_none_iff.mpr hn)
  rw [setVariable_eq, planSet, hfind]
  simp only [planDefine, hn id h.head_mem]
  rfl

/-- The nearest binding of a name after it got a value. -/
theorem Nearest.after (hn : t.Nearest B name s b) {b' : Binding} (hp : t.Puts t' s name b') :
    t'.Nearest B name s b' := by
  obtain ⟨before, after, hB, hfirst⟩ := hn.first
  refine ⟨hp.here, before, after, hB, fun i hi => ?_⟩
  -- A scope before the nearest one does not bind the name, so it is another one.
  have his : i ≠ s := by
    rintro rfl
    exact absurd (hn.bound.symm.trans (hfirst i hi)) nofun
  rw [hp.elsewhere i his]
  exact hfirst i hi

theorem Nearest.mem (hn : t.Nearest B name s b) : s ∈ B := by
  obtain ⟨before, after, rfl, _⟩ := hn.first
  simp

/-- The current scope comes first in its segment. -/
theorem Segment.nearest_head (h : t.Segment id B) (hb : (t.get id).vars.get? name = some b) :
    t.Nearest B name id b := by
  cases h with
  | file _ => exact ⟨hb, [], [], rfl, nofun⟩
  | inner _ _ _ => exact ⟨hb, [], _, rfl, nofun⟩

/-- What is found after a binding of the nearest scope was put. -/
theorem lookup?_after (ht : t'.Rooted) (h : t'.Segment id B) (hn : t'.Nearest B name s ⟨v, k⟩) :
    t'.lookup? name id = some v := by
  rw [lookup?, find?_of_nearest ht h hn, Option.map_some]

end Scopes

/-! ### The main statement -/

/-- **The word `set` stops at the file.** In a forest that any operations have made of the global
scope, let `B` be the scopes from a scope outward, up to and including the first one of a file. If
the nearest of them that binds the name binds it as a constant, the word `set` is refused. If it is
another binding, that binding gets the value and nothing else changes. If there is none, the scope
itself gets a binding by `set` after those that it has, and nothing else changes. Whenever a value
is set it is found afterwards, and no scope outside of `B` is touched, whatever names it has. -/
theorem set_stops_at_file {t : Scopes} (h : Scopes.initial.Leads t) {id : ScopeId}
    (hid : id < t.table.size) (name : String) (v : Value) :
    ∃ B, t.Segment id B ∧ (∀ B', t.Segment id B' → B' = B) ∧
      (∀ s b, t.Nearest B name s b → b.kind = .const →
        t.setVariable id name v = .error .constant ∧ t.after (.setVariable id name v) = t) ∧
      (∀ s b, t.Nearest B name s b → b.kind ≠ .const →
        ∃ t', t.setVariable id name v = .ok t' ∧ t.Puts t' s name { b with value := v }) ∧
      ((∀ s ∈ B, (t.get s).vars.get? name = none) →
        ∃ t', t.setVariable id name v = .ok t' ∧ t.Puts t' id name ⟨v, .set⟩) ∧
      ∀ t', t.setVariable id name v = .ok t' →
        t'.lookup? name id = some v ∧ ∀ i, i ∉ B → t'.get i = t.get i := by
  have hrooted : t.Rooted := h.rooted Scopes.rooted_initial
  obtain ⟨B, hB⟩ := hrooted.segment id
  have hconst {s b} (hn : t.Nearest B name s b) (hc : b.kind = .const) :=
    Scopes.setVariable_constant (v := v) hrooted hB hn hc
  have hfound {s b} (hn : t.Nearest B name s b) (hc : b.kind ≠ .const) :=
    Scopes.setVariable_found (v := v) hrooted hB hn hc
  refine ⟨B, hB, fun B' => hB.unique, fun s b hn hc => ?_, fun s b hn hc => ?_, fun hn => ?_,
    fun t' ht' => ?_⟩
  · exact ⟨hconst hn hc, Scopes.after_of_error (hconst hn hc)⟩
  · exact ⟨_, hfound hn hc, Scopes.puts_update hn.bound⟩
  · exact ⟨_, Scopes.setVariable_new hrooted hB hn, Scopes.puts_bind hid (hn id hB.head_mem)⟩
  · -- Either way the binding that was put is the nearest one afterwards.
    suffices hput : ∃ s b, t.Puts t' s name b ∧ s ∈ B ∧ b.value = v ∧ t'.Nearest B name s b by
      obtain ⟨s, ⟨_, k⟩, hp, hs, rfl, hn⟩ := hput
      refine ⟨Scopes.lookup?_after (hrooted.of_frame hp.frame) (hB.of_frame hp.frame) hn,
        fun i hi => hp.elsewhere i ?_⟩
      rintro rfl
      exact hi hs
    cases hf : t.firstOf? B name with
    | some found =>
      -- The binding that was found has the value, as it was no constant.
      obtain ⟨s, b⟩ := found
      have hn := Scopes.firstOf?_eq_some_iff.mp hf
      by_cases hc : b.kind = .const
      · rw [hconst hn hc] at ht'
        cases ht'
      · obtain rfl := Except.ok.inj ((hfound hn hc).symm.trans ht')
        have hp := Scopes.puts_update (v := v) hn.bound
        exact ⟨s, _, hp, hn.mem, rfl, hn.after hp⟩
    | none =>
      have hn := Scopes.firstOf?_eq_none_iff.mp hf
      obtain rfl := Except.ok.inj ((Scopes.setVariable_new (v := v) hrooted hB hn).symm.trans ht')
      have hp := Scopes.puts_bind (b := ⟨v, .set⟩) hid (hn id hB.head_mem)
      exact ⟨id, _, hp, hB.head_mem, rfl, (hB.of_frame hp.frame).nearest_head hp.here⟩

/-- A function of a module sets a name that the global scope has as a constant. -/
theorem set_stops_at_file_module :
    let t := ((Scopes.initial.after (.define Scopes.root "x" (.bool true) .const)).after
      (.child Scopes.root .moduleRoot)).after (.child 1 .function)
    Scopes.initial.Leads t ∧ 2 < t.table.size ∧
      ∃ t', t.setVariable 2 "x" (.bool false) = .ok t' ∧
        t'.lookup? "x" 2 = some (.bool false) ∧ t'.get Scopes.root = t.get Scopes.root := by
  intro t
  have hleads : Scopes.initial.Leads t :=
    .step _ (.step _ (.step _ (.refl _) (by decide)) (by cbv)) (by cbv)
  have hsize : 2 < t.table.size := by cbv
  obtain ⟨B, hB, -, -, -, hnew, hset⟩ := set_stops_at_file hleads hsize "x" (.bool false)
  have hsegment : t.Segment 2 [2, 1] := .inner (by cbv) (by cbv) (.file (by cbv))
  obtain rfl := hsegment.unique hB
  have hfunction : (t.get 2).vars.get? "x" = none := by cbv
  have hmodule : (t.get 1).vars.get? "x" = none := by cbv
  obtain ⟨t', ht', -⟩ := hnew (by simp [hfunction, hmodule])
  obtain ⟨hlookup, houtside⟩ := hset t' ht'
  exact ⟨hleads, hsize, t', ht', hlookup, houtside Scopes.root (by decide)⟩

end ScriptLang
