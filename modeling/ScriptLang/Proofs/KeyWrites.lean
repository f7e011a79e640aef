import ScriptLang.Eval.Run
import ScriptLang.Proofs.Containment
import ScriptLang.Proofs.IndexedMaps

/-!
# Containers as keys

The key of an entry is the printed form of a value, and a container is printed with its contents. An
object that is written to cannot be printed meanwhile; so a write halts the program exactly if
printing the key comes across the object.

* `Heap.visits_iff` — printing comes across exactly what the value reaches. The walk is cut where a
  container is inside itself. That cuts no way off, since a shortest way to a container meets none
  twice (`Heap.visitsFrom_of_within`).
* `Heap.Writes` — what a heap has become by one entry.
* `KeyWrite` says how a write under a key ends: by halting, or with one entry written.
* `keys_that_reach_break` is the main statement, about the statement and the function that write and
  the three ways to read.
-/

namespace ScriptLang

namespace Heap

/-- **Within.** The value comes to a container in so many steps at most. -/
def Within (h : Heap) (target : Container) : Nat → Value → Prop
  | 0, v => v.container? = some target
  | k + 1, v => h.Within target k v ∨ ∃ w, h.Contains v w ∧ h.Within target k w

variable {h h' : Heap} {target : Container} {path : List Container} {v w : Value} {n k : Nat}
  {r : Ref}

/-! ### What printing comes across -/

theorem within_of_reaches (hr : h.Reaches v w) (hw : w.container? = some target) :
    ∃ k, h.Within target k v := by
  induction hr using Relation.ReflTransGen.head_induction_on with
  | refl => exact ⟨0, hw⟩
  | head hvw _ ih =>
    obtain ⟨k, hk⟩ := ih
    exact ⟨k + 1, .inr ⟨_, hvw, hk⟩⟩

/-- What printing comes across is reached. -/
theorem reaches_of_visitsFrom (hv : h.visitsFrom target n path v = true) :
    ∃ w, h.Reaches v w ∧ w.container? = some target := by
  induction n generalizing path v with
  | zero => cases hv
  | succ n ih =>
    unfold visitsFrom at hv
    cases hc : v.container? with
    | none =>
      rw [hc] at hv
      cases hv
    | some c =>
      simp only [hc] at hv
      split at hv
      · rename_i htarget
        exact ⟨v, .refl, htarget ▸ hc⟩
      · -- The container is not the target, and printing goes into it unless it is in it already.
        split at hv
        · cases hv
        · obtain ⟨w, hw, hwv⟩ := List.any_eq_true.mp hv
          obtain ⟨u, hu, hut⟩ := ih hwv
          exact ⟨u, hu.head ⟨c, hc, hw⟩, hut⟩

/-- Printing comes across what is so many steps away, if the containers that it came through are
further away: then the next container on a shortest way is none of them. By induction on the
distance. -/
theorem visitsFrom_of_within (hv : h.Within target k v)
    (hp : ∀ u c, u.container? = some c → c ∈ path → ¬ h.Within target k u)
    (hn : freshCount h.containers path < n) : h.visitsFrom target n path v = true := by
  induction k generalizing path v n with
  | zero =>
    obtain ⟨n, rfl⟩ := exists_succ_of_fresh hn
    unfold visitsFrom
    simp only [show v.container? = some target from hv, if_true]
  | succ k ih =>
    have hp' : ∀ u c, u.container? = some c → c ∈ path → ¬ h.Within target k u :=
      fun u c hu hc hk => hp u c hu hc (.inl hk)
    by_cases hk : h.Within target k v
    · exact ih hk hp' hn
    · -- `v` is the container `c`, and the shortest way goes on to `w` inside of it. If `c` had been
      -- entered before, it would be further away than it is.
      obtain ⟨w, ⟨c, hc, hw⟩, hwk⟩ := hv.resolve_left hk
      have hcp : c ∉ path := fun hmem => hp v c hc hmem (.inr ⟨w, ⟨c, hc, hw⟩, hwk⟩)
      obtain ⟨n, rfl⟩ := exists_succ_of_fresh hn
      have hwv : h.visitsFrom target n (c :: path) w = true := by
        refine ih hwk (fun u d hu hd => ?_) (fresh_inside hn hcp hw)
        rcases List.mem_cons.mp hd with rfl | hd
        · exact Value.container?_inj hu hc ▸ hk
        · exact hp' u d hu hd
      unfold visitsFrom
      simp only [hc]
      split
      · rfl
      · rw [if_neg (by simpa using hcp)]
        exact List.any_eq_true.mpr ⟨w, hw, hwv⟩

/-- Printing a value comes across exactly what the value reaches. -/
theorem visits_iff (h : Heap) (target : Container) (v : Value) :
    h.visits target v = true ↔ ∃ w, h.Reaches v w ∧ w.container? = some target := by
  constructor
  · exact reaches_of_visitsFrom
  · rintro ⟨w, hw, ht⟩
    obtain ⟨k, hk⟩ := within_of_reaches hw ht
    exact visitsFrom_of_within hk (fun _ _ _ => nofun)
      (Nat.lt_succ_of_le (h.freshCount_containers_le []))

theorem visits_object_iff (h : Heap) (r : Ref) (v : Value) :
    h.visits (.object r) v = true ↔ h.Reaches v (.object r) := by
  rw [visits_iff]
  constructor
  · rintro ⟨w, hw, ht⟩
    rwa [Value.container?_inj (w := .object r) ht rfl] at hw
  · exact fun hv => ⟨_, hv, rfl⟩

/-! ### One entry -/

/-- **Writes.** The second heap is the first one but for one entry of one object: a key that the
object has keeps its place, another one comes after those that it has. -/
structure Writes (h h' : Heap) (r : Ref) (key : String) (v : Value) : Prop where
  arrays : h'.arrays = h.arrays
  identities : h'.identities = h.identities
  size : h'.objects.size = h.objects.size
  elsewhere : ∀ s, s ≠ r → h'.object s = h.object s
  here : (h'.object r).get? key = some v
  others : ∀ k, k ≠ key → (h'.object r).get? k = (h.object r).get? k
  keys : (h'.object r).keys =
    if key ∈ (h.object r).keys then (h.object r).keys else (h.object r).keys ++ [key]

/-- An insertion into an object. -/
theorem writes_insert (hr : r < h.objects.size) (key : String) (v : Value) :
    h.Writes (h.modifyObject r fun entries => entries.insert key v) r key v := by
  have hself : (h.modifyObject r fun entries => entries.insert key v).object r =
      (h.object r).insert key v := by
    simp [object, modifyObject, hr, Array.getElem_modify_self]
  refine ⟨rfl, rfl, by simp [modifyObject], fun s hs => ?_, ?_, fun k hk => ?_, ?_⟩
  · simp [object, modifyObject, Array.getElem?_modify, Ne.symm hs]
  · rw [hself, OrderedMap.get?_insert, if_pos rfl]
  · rw [hself, OrderedMap.get?_insert, if_neg hk]
  · rw [hself, OrderedMap.keys_insert, OrderedMap.isSome_index]
    simp only [OrderedMap.isSome_get?_iff]

end Heap

/-! ### Writes and reads -/

/-- **KeyWrite.** How a write of an entry ends: the program halts exactly if the key reaches the
object, and else the entry has the value, under the printed form of the key. -/
structure KeyWrite {α : Type} (m : Machine) (r : Ref) (key v : Value) (a : α) (o : Outcome α) :
    Prop where
  breaks : o = .halt .internal m ↔ m.heap.Reaches key (.object r)
  succeeds : ¬ m.heap.Reaches key (.object r) →
    ∃ h, m.heap.Writes h r (m.heap.print key) v ∧ o = .ok a { m with heap := h }

namespace Eval

variable {α : Type} {m : Machine} {r : Ref} {key v : Value}

theorem storeMember_of_reaches (hk : m.heap.Reaches key (.object r)) :
    storeMember r key v m = .halt .internal m := by
  have hvisits : m.heap.visits (.object r) key = true := (m.heap.visits_object_iff r key).mpr hk
  refine (bind_of_ok rfl).trans ?_
  dsimp only
  rw [if_pos hvisits]
  rfl

theorem storeMember_of_not_reaches (hk : ¬ m.heap.Reaches key (.object r)) :
    storeMember r key v m = .ok () { m with
      heap := m.heap.modifyObject r fun entries => entries.insert (m.heap.print key) v } := by
  have hvisits : ¬ m.heap.visits (.object r) key = true :=
    mt (m.heap.visits_object_iff r key).mp hk
  refine (bind_of_ok rfl).trans ?_
  dsimp only
  rw [if_neg hvisits]
  exact bind_of_ok (print_eq key m)

/-- A computation that stores an entry and then gives a result. -/
theorem keyWrite_storeMember (hr : r < m.heap.objects.size) (key v : Value) (a : α) :
    KeyWrite m r key v a ((storeMember r key v >>= fun _ => pure a) m) := by
  by_cases hk : m.heap.Reaches key (.object r)
  · have hstore := bind_of_halt (f := fun _ => pure a) (storeMember_of_reaches (v := v) hk)
    exact ⟨iff_of_true hstore hk, fun hn => absurd hk hn⟩
  · have hstore := bind_of_ok (f := fun _ => pure a) (storeMember_of_not_reaches (v := v) hk)
    rw [hstore]
    exact ⟨iff_of_false nofun hk, fun _ => ⟨_, Heap.writes_insert hr _ v, rfl⟩⟩

end Eval

/-! ### The main statement -/

/-- **Keys that reach their object break.** In any heap, writing an entry of an object under a key
halts the program exactly if the key reaches the object, be it by a statement whose operands have
been computed or by the function `update`; else it writes the entry of the key's printed form and
nothing else. No handler sees the halt, and a program that halts so ends with the error `INT001`.
Reading an object under any key gives what is there, and leaves the machine as it is. -/
theorem keys_that_reach_break {m : Machine} {r : Ref} (hr : r < m.heap.objects.size)
    (key v : Value) :
    (∀ ev loc e index value m₀ m₁ m₂, ev.expr e m₀ = .ok (.object r) m₁ →
      ev.expr index m₁ = .ok key m₂ → ev.expr value m₂ = .ok v m →
      KeyWrite m r key v (.normal v) (Eval.statement ev (.setIndex loc e index value) m₀)) ∧
    (∀ ev loc,
      KeyWrite m r key v v ((Builtin.core .update).call ev [.object r, key, v] loc m)) ∧
    (∀ ev body name handler m₀, Eval.inBlock (Eval.runStatements ev body) m₀ = .halt .internal m →
      Eval.attempt ev body name handler m₀ = .halt .internal m) ∧
    (∀ p file m₀, Machine.interpret p file m₀ = .halt .internal m →
      ∃ d, m₀.run p file = (.error d, m) ∧ d.code = "INT001" ∧
        d.message = "Internal error: RefCell already mutably borrowed") ∧
    (∀ ev loc e index safe m₀ m₁, ev.expr e m₀ = .ok (.object r) m₁ →
      ev.expr index m₁ = .ok key m →
      Eval.expression ev (.index loc e index safe) m₀ =
        .ok (.ofOption ((m.heap.object r).get? (m.heap.print key))) m) ∧
    (∀ ev loc, (Builtin.core .get).call ev [.object r, key] loc m =
      .ok (.ofOption ((m.heap.object r).get? (m.heap.print key))) m) ∧
    ∀ ev loc, (Builtin.core .hasProperty).call ev [.object r, key] loc m =
      .ok (.bool ((m.heap.object r).contains (m.heap.print key))) m := by
  refine ⟨fun ev loc e index value m₀ m₁ m₂ he hi hv => ?_, fun ev loc => ?_,
    fun ev body name handler m₀ h => ?_, fun p file m₀ h => ?_,
    fun ev loc e index safe m₀ m₁ he hi => ?_, fun ev loc => rfl, fun ev loc => rfl⟩
  · have hstatement : Eval.statement ev (.setIndex loc e index value) m₀ =
        (Eval.storeMember r key v >>= fun _ => pure (.normal v)) m :=
      (Eval.bind_of_ok he).trans ((Eval.bind_of_ok hi).trans (Eval.bind_of_ok hv))
    rw [hstatement]
    exact Eval.keyWrite_storeMember hr key v _
  · exact Eval.keyWrite_storeMember hr key v v
  · cases handler with
    | none => exact h
    | some handler =>
      -- A handler is for errors, and a halt is none.
      change Eval.handle _ _ m₀ = _
      unfold Eval.handle
      rw [h]
  · refine ⟨Machine.brokenDown .writeWhileRead file, ?_, rfl, rfl⟩
    unfold Machine.run
    rw [h]
    rfl
  · refine (Eval.bind_of_ok he).trans ?_
    have hnull : ¬ (safe && (Value.object r).isNull) = true := by simp [Value.isNull]
    rw [if_neg hnull]
    exact Eval.bind_of_ok hi

/-- An empty object, written to under an array that holds it and under an array that does not. -/
theorem keys_that_reach_break_array :
    let m : Machine := { heap := { arrays := #[#[.object 0], #[]], objects := #[.empty] } }
    0 < m.heap.objects.size ∧
      (Builtin.core .update).call (.ofBound 0) [.object 0, .array 0, .null] default m =
        .halt .internal m ∧
      ∃ h, m.heap.Writes h 0 "[]" .null ∧
        (Builtin.core .update).call (.ofBound 0) [.object 0, .array 1, .null] default m =
          .ok .null { m with heap := h } := by
  intro m
  have hsize : 0 < m.heap.objects.size := by decide
  have hreaches : m.heap.Reaches (.array 0) (.object 0) :=
    .single ⟨.array 0, rfl, List.mem_singleton_self _⟩
  have hnot : ¬ m.heap.Reaches (.array 1) (.object 0) := by
    intro h
    rcases h.cases_head with h | ⟨w, ⟨c, hc, hw⟩, _⟩
    · cases h
    · cases hc
      cases hw
  have hbreaks := (keys_that_reach_break hsize (.array 0) .null).2.1 (.ofBound 0) default
  have hwrites := (keys_that_reach_break hsize (.array 1) .null).2.1 (.ofBound 0) default
  exact ⟨hsize, hbreaks.breaks.mpr hreaches, hwrites.succeeds hnot⟩

end ScriptLang
