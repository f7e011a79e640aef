import Mathlib.Data.List.Induction
import ScriptLang.Proofs.IndexedMaps

/-!
# Ordered maps are association lists

Whoever uses an ordered map cannot tell it from a plain list of entries in which a key is searched
from the front. The index is only a shortcut, and it is never wrong: not after a value was replaced,
and not after an entry was taken out and all later ones moved up.

* `Entries` has the operations of the list: a value is put in place of the one that a key has, or at
  the end, and the entry of a key is taken out without disturbing the others.
* An `OrderedMap.Request` is one use of a map and an `OrderedMap.Answer` what it gives back.
  `OrderedMap.serve` and `Entries.serve` carry a request out.
* `OrderedMap.split` is what the index knows: the place of a key cuts the entries at the first entry
  of that key. From it, every request is answered alike and leaves map and list alike
  (`OrderedMap.serve_eq`).
* **Main statement**, `map_refines_entries`: this holds of all sequences of requests, from any map
  that was made of a list of entries.
-/

namespace ScriptLang

/-! ### The list -/

namespace Entries

variable {α : Type} {key : String} {v : α} {f : α → α} {before after : List (String × α)}

/-- Gives a key a value: in place of the one that it has, or else at the end. -/
def put (key : String) (v : α) : List (String × α) → List (String × α)
  | [] => [(key, v)]
  | e :: es => if e.1 = key then (key, v) :: es else e :: put key v es

/-- Changes the value of a key, if it has one. -/
def change (key : String) (f : α → α) : List (String × α) → List (String × α)
  | [] => []
  | e :: es => if e.1 = key then (e.1, f e.2) :: es else e :: change key f es

/-- Takes the entry of a key out. -/
def remove (key : String) : List (String × α) → List (String × α)
  | [] => []
  | e :: es => if e.1 = key then es else e :: remove key es

/-- The value of a key. -/
def get? (key : String) : List (String × α) → Option α
  | [] => none
  | e :: es => if e.1 = key then some e.2 else get? key es

/-- The list of some entries, each put after the other. -/
def ofList (entries : List (String × α)) : List (String × α) :=
  entries.foldl (fun es e => put e.1 e.2 es) []

attribute [local simp] put change remove get?

/-! Where the first entry of a key is known, every operation is. -/

section Known

variable (hbefore : ∀ e ∈ before, e.1 ≠ key)
include hbefore

theorem put_known (w : α) :
    put key v (before ++ (key, w) :: after) = before ++ (key, v) :: after := by
  induction before with
  | nil => simp
  | cons e before ih =>
    obtain ⟨he, hbefore⟩ := List.forall_mem_cons.mp hbefore
    rw [List.cons_append, put, if_neg he, ih hbefore, List.cons_append]

theorem change_known :
    change key f (before ++ (key, v) :: after) = before ++ (key, f v) :: after := by
  induction before with
  | nil => simp
  | cons e before ih =>
    obtain ⟨he, hbefore⟩ := List.forall_mem_cons.mp hbefore
    rw [List.cons_append, change, if_neg he, ih hbefore, List.cons_append]

theorem remove_known : remove key (before ++ (key, v) :: after) = before ++ after := by
  induction before with
  | nil => simp
  | cons e before ih =>
    obtain ⟨he, hbefore⟩ := List.forall_mem_cons.mp hbefore
    rw [List.cons_append, remove, if_neg he, ih hbefore, List.cons_append]

theorem get?_known : get? key (before ++ (key, v) :: after) = some v := by
  induction before with
  | nil => simp
  | cons e before ih =>
    obtain ⟨he, hbefore⟩ := List.forall_mem_cons.mp hbefore
    rw [List.cons_append, get?, if_neg he, ih hbefore]

end Known

/-! A key without an entry is put at the end, and nothing else can be done with it. -/

section Unknown

variable (hnone : ∀ e ∈ before, e.1 ≠ key)
include hnone

theorem put_unknown : put key v before = before ++ [(key, v)] := by
  induction before with
  | nil => rfl
  | cons e before ih =>
    obtain ⟨he, hnone⟩ := List.forall_mem_cons.mp hnone
    rw [put, if_neg he, ih hnone, List.cons_append]

theorem change_unknown : change key f before = before := by
  induction before with
  | nil => rfl
  | cons e before ih =>
    obtain ⟨he, hnone⟩ := List.forall_mem_cons.mp hnone
    rw [change, if_neg he, ih hnone]

theorem remove_unknown : remove key before = before := by
  induction before with
  | nil => rfl
  | cons e before ih =>
    obtain ⟨he, hnone⟩ := List.forall_mem_cons.mp hnone
    rw [remove, if_neg he, ih hnone]

theorem get?_unknown : get? key before = none := by
  induction before with
  | nil => rfl
  | cons e before ih =>
    obtain ⟨he, hnone⟩ := List.forall_mem_cons.mp hnone
    rw [get?, if_neg he, ih hnone]

end Unknown

theorem isSome_get?_iff {entries : List (String × α)} :
    (get? key entries).isSome ↔ key ∈ entries.map Prod.fst := by
  induction entries with
  | nil => simp
  | cons e entries ih =>
    rw [get?, List.map_cons, List.mem_cons]
    split
    · simp [*]
    · rw [ih, or_iff_right (Ne.symm ‹_›)]

theorem mem_of_get? {entries : List (String × α)} (h : get? key entries = some v) :
    (key, v) ∈ entries := by
  induction entries with
  | nil => cases h
  | cons e entries ih =>
    rw [get?] at h
    split at h
    next hkey =>
      rw [← hkey, ← Option.some.inj h]
      exact List.mem_cons_self
    next => exact List.mem_cons_of_mem e (ih h)

theorem get?_append (key : String) (es fs : List (String × α)) :
    get? key (es ++ fs) = (get? key es).or (get? key fs) := by
  induction es with
  | nil => rfl
  | cons e es ih =>
    rw [List.cons_append, get?, get?]
    split
    · rfl
    · exact ih

/-- Entries with different keys are put one after the other. -/
theorem foldl_put_of_nodup {entries : List (String × α)} : ∀ {done : List (String × α)},
    ((done ++ entries).map Prod.fst).Nodup →
    entries.foldl (fun es e => put e.1 e.2 es) done = done ++ entries := by
  induction entries with
  | nil => simp
  | cons e entries ih =>
    intro done h
    have hnew : ∀ e' ∈ done, e'.1 ≠ e.1 := by
      intro e' he' heq
      rw [List.map_append, List.nodup_append'] at h
      exact h.2.2 (List.mem_map.mpr ⟨e', he', rfl⟩) (by simp [heq])
    rw [List.foldl_cons, put_unknown hnew, ih (by simpa using h), List.append_assoc,
      List.singleton_append]

theorem ofList_of_nodup {entries : List (String × α)} (h : (entries.map Prod.fst).Nodup) :
    ofList entries = entries :=
  foldl_put_of_nodup h

/-- A key is new at the end of a list unless it stands in the list already. -/
theorem eraseDups_concat (keys : List String) (key : String) :
    (keys ++ [key]).eraseDups = if key ∈ keys then keys.eraseDups else keys.eraseDups ++ [key] := by
  rw [List.eraseDups_append]
  split <;> simp [List.removeAll, List.eraseDups_cons, *]

/-- A key that comes again with the same value stays at its first place. -/
theorem put_eraseDups (value : String → α) (key : String) (keys : List String) :
    put key (value key) (keys.eraseDups.map fun k => (k, value k)) =
      (keys ++ [key]).eraseDups.map fun k => (k, value k) := by
  rw [eraseDups_concat]
  by_cases hk : key ∈ keys
  · -- The key has an entry, and the value that is put there is the one it has.
    obtain ⟨before, after, hsplit, hbefore⟩ :=
      List.eq_append_cons_of_mem (List.mem_eraseDups.mpr hk)
    have hne : ∀ e ∈ before.map fun k => (k, value k), e.1 ≠ key := by
      intro e he heq
      obtain ⟨k, hk, rfl⟩ := List.mem_map.mp he
      exact hbefore (heq ▸ hk)
    rw [if_pos hk, hsplit, List.map_append, List.map_cons, put_known hne]
  · have hne : ∀ e ∈ keys.eraseDups.map fun k => (k, value k), e.1 ≠ key := by
      intro e he heq
      obtain ⟨k, hk', rfl⟩ := List.mem_map.mp he
      exact hk (List.mem_eraseDups.mp (heq ▸ hk'))
    rw [if_neg hk, put_unknown hne, List.map_append]
    rfl

/-- Keys with a value for each stand at their first places. -/
theorem ofList_map (value : String → α) (keys : List String) :
    ofList (keys.map fun k => (k, value k)) = keys.eraseDups.map fun k => (k, value k) := by
  have h (done : List String) :
      (keys.map fun k => (k, value k)).foldl (fun es e => put e.1 e.2 es)
        (done.eraseDups.map fun k => (k, value k)) =
      (done ++ keys).eraseDups.map fun k => (k, value k) := by
    induction keys generalizing done with
    | nil => simp
    | cons key keys ih =>
      rw [List.map_cons, List.foldl_cons, put_eraseDups, ih (done ++ [key]), List.append_assoc,
        List.singleton_append]
  exact h []

end Entries

/-! ### Requests -/

/-- One use of a map. -/
inductive OrderedMap.Request (α : Type) where
  | insert (key : String) (value : α)
  | remove (key : String)
  /-- Looks a key up, to change its value in place. -/
  | change (key : String) (f : α → α)
  | get (key : String)
  | contains (key : String)
  | size
  | entries
  | keys
  | values

/-- What a use of a map gives back. -/
inductive OrderedMap.Answer (α : Type) where
  /-- A value, if there is one: the one found, replaced or taken out. -/
  | value (v : Option α)
  | flag (b : Bool)
  | count (n : Nat)
  | entries (es : List (String × α))
  | keys (keys : List String)
  | values (vs : List α)

open OrderedMap (Request Answer)

section Serve

variable {α σ : Type}

/-- Carries a request out on a map. -/
def OrderedMap.serve (m : OrderedMap α) : Request α → Answer α × OrderedMap α
  | .insert key v => ((m.getThenInsert? key v).map .value id)
  | .remove key => ((m.getThenErase? key).map .value id)
  | .change key f => (.value (m.get? key), m.modify key f)
  | .get key => (.value (m.get? key), m)
  | .contains key => (.flag (m.contains key), m)
  | .size => (.count m.size, m)
  | .entries => (.entries m.toList, m)
  | .keys => (.keys m.keys, m)
  | .values => (.values m.values, m)

/-- Carries a request out on a list of entries. -/
def Entries.serve (es : List (String × α)) : Request α → Answer α × List (String × α)
  | .insert key v => (.value (get? key es), put key v es)
  | .remove key => (.value (get? key es), remove key es)
  | .change key f => (.value (get? key es), change key f es)
  | .get key => (.value (get? key es), es)
  | .contains key => (.flag (get? key es).isSome, es)
  | .size => (.count es.length, es)
  | .entries => (.entries es, es)
  | .keys => (.keys (es.map (·.1)), es)
  | .values => (.values (es.map (·.2)), es)

/-- Carries requests out one after the other, each by `serve`. -/
def OrderedMap.Request.run (serve : σ → Request α → Answer α × σ) (s : σ) :
    List (Request α) → List (Answer α) × σ
  | [] => ([], s)
  | r :: rs =>
    let first := serve s r
    let others := run serve first.2 rs
    (first.1 :: others.1, others.2)

/-- The place at which a request reads or writes the entries of a map. -/
def OrderedMap.Request.place? (m : OrderedMap α) : Request α → Option Nat
  | .insert key _ | .remove key | .change key _ | .get key => m.index[key]?
  | .contains _ | .size | .entries | .keys | .values => none

end Serve

namespace OrderedMap

variable {α : Type} {m : OrderedMap α} {key : String} {v : α} {i : Nat}

/-! ### Where a key is -/

/-- A key that the index does not know has no entry. -/
theorem forall_ne (h : m.index[key]? = none) : ∀ e ∈ m.entries.toList, e.1 ≠ key := by
  rintro e he rfl
  obtain ⟨i, hi⟩ := Array.mem_iff_getElem?.mp (Array.mem_toList_iff.mp he)
  have hkey := (m.indexed e.1 i).mpr (by rw [hi, Option.map_some])
  rw [h] at hkey
  cases hkey

/-- **The place of a key** cuts the entries at its entry, which is the only one. -/
theorem split (h : m.index[key]? = some i) :
    ∃ before v after, m.entries.toList = before ++ (key, v) :: after ∧ before.length = i ∧
      m.entries[i]? = some (key, v) ∧ ∀ e ∈ before, e.1 ≠ key := by
  have hi : i < m.entries.toList.length := by simpa using lt_size h
  have hentry : m.entries[i]? = some (key, m.entries.toList[i].2) := by
    have hkey := (m.indexed key i).mp h
    obtain ⟨e, he, rfl⟩ := Option.map_eq_some_iff.mp hkey
    rw [← Array.getElem?_toList, List.getElem?_eq_getElem hi] at he ⊢
    rw [← Option.some.inj he]
  refine ⟨m.entries.toList.take i, _, m.entries.toList.drop (i + 1), ?_, ?_, hentry, ?_⟩
  · rw [← Array.getElem?_toList, List.getElem?_eq_getElem hi] at hentry
    rw [← Option.some.inj hentry, ← List.drop_eq_getElem_cons, List.take_append_drop]
  · rw [List.length_take]
    omega
  · -- An earlier entry of the key would have to be at its one place.
    rintro e he rfl
    obtain ⟨j, hj⟩ := List.mem_iff_getElem?.mp he
    obtain ⟨hji, hj⟩ : j < i ∧ m.entries.toList[j]? = some e := by
      rw [List.getElem?_take] at hj
      split at hj
      · exact ⟨‹_›, hj⟩
      · cases hj
    have hplace := (m.indexed e.1 j).mpr (by rw [← Array.getElem?_toList, hj, Option.map_some])
    rw [h, Option.some.injEq] at hplace
    omega

/-! ### Requests are answered alike -/

/-- What the list finds is what the map finds. -/
theorem get?_entries (m : OrderedMap α) (key : String) :
    Entries.get? key m.toList = m.get? key := by
  unfold OrderedMap.get? toList
  cases h : m.index[key]? with
  | none => exact Entries.get?_unknown (forall_ne h)
  | some i =>
    obtain ⟨before, v, after, hsplit, -, hentry, hbefore⟩ := split h
    rw [hsplit, Entries.get?_known hbefore]
    dsimp only
    rw [hentry, Option.map_some]

/-- A change at the place between two lists of entries. -/
theorem modify_between (before after : List (String × α)) (e : String × α)
    (f : String × α → String × α) :
    (before ++ e :: after).modify before.length f = before ++ f e :: after :=
  List.modifyTailIdx_add _ 0 before (e :: after)

/-- A value that is changed at the place of a key is changed in the list. -/
theorem toList_modifyAt (h : m.index[key]? = some i) (f : α → α) :
    ∃ before w after, m.toList = before ++ (key, w) :: after ∧ (∀ e ∈ before, e.1 ≠ key) ∧
      (m.toRaw.modifyAt i f).entries.toList = before ++ (key, f w) :: after := by
  obtain ⟨before, w, after, hsplit, rfl, -, hbefore⟩ := split h
  refine ⟨before, w, after, hsplit, hbefore, ?_⟩
  rw [Raw.modifyAt, Array.toList_modify, hsplit, modify_between]

theorem toList_getThenInsert? (m : OrderedMap α) (key : String) (v : α) :
    (m.getThenInsert? key v).1 = m.get? key ∧
      (m.getThenInsert? key v).2.toList = Entries.put key v m.toList := by
  simp only [OrderedMap.get?, toList, getThenInsert?, Raw.getThenInsert?]
  cases h : m.index[key]? with
  | none =>
    exact ⟨rfl, Array.toList_push.trans (Entries.put_unknown (forall_ne h)).symm⟩
  | some i =>
    obtain ⟨before, w, after, hlist, hbefore, hchanged⟩ := toList_modifyAt h fun _ => v
    refine ⟨rfl, hchanged.trans ?_⟩
    rw [← Entries.put_known hbefore, ← hlist]
    rfl

theorem toList_getThenErase? (m : OrderedMap α) (key : String) :
    (m.getThenErase? key).1 = m.get? key ∧
      (m.getThenErase? key).2.toList = Entries.remove key m.toList := by
  simp only [OrderedMap.get?, toList, getThenErase?, Raw.getThenErase?]
  cases h : m.index[key]? with
  | none =>
    exact ⟨rfl, (Entries.remove_unknown (forall_ne h)).symm⟩
  | some i =>
    obtain ⟨before, w, after, hsplit, rfl, -, hbefore⟩ := split h
    refine ⟨rfl, ?_⟩
    dsimp only [Raw.eraseAt]
    rw [Array.toList_eraseIdxIfInBounds, hsplit, Entries.remove_known hbefore,
      List.eraseIdx_append_of_length_le (Nat.le_refl _), Nat.sub_self, List.eraseIdx_cons_zero]

theorem toList_modify (m : OrderedMap α) (key : String) (f : α → α) :
    (m.modify key f).toList = Entries.change key f m.toList := by
  cases h : m.index[key]? with
  | none =>
    rw [modify_of_none h]
    exact (Entries.change_unknown (forall_ne h)).symm
  | some i =>
    obtain ⟨before, w, after, hlist, hbefore, hchanged⟩ := toList_modifyAt h f
    rw [toList, toRaw_modify_of_some h, hchanged, hlist, Entries.change_known hbefore]

theorem contains_eq (m : OrderedMap α) (key : String) :
    m.contains key = (Entries.get? key m.toList).isSome := by
  rw [get?_entries, ← isSome_index, contains, Std.HashMap.contains_eq_isSome_getElem?]

/-- **One request** is answered by the map as by the list, and leaves them alike. -/
theorem serve_eq (m : OrderedMap α) (r : Request α) :
    (m.serve r).1 = (Entries.serve m.toList r).1 ∧
      (m.serve r).2.toList = (Entries.serve m.toList r).2 := by
  cases r with
  | insert key v =>
    obtain ⟨hold, hlist⟩ := m.toList_getThenInsert? key v
    exact ⟨congrArg Answer.value (hold.trans (m.get?_entries key).symm), hlist⟩
  | remove key =>
    obtain ⟨hold, hlist⟩ := m.toList_getThenErase? key
    exact ⟨congrArg Answer.value (hold.trans (m.get?_entries key).symm), hlist⟩
  | change key f =>
    exact ⟨congrArg Answer.value (m.get?_entries key).symm, m.toList_modify key f⟩
  -- What only reads leaves the map as it is.
  | get key => exact ⟨congrArg Answer.value (m.get?_entries key).symm, rfl⟩
  | contains key => exact ⟨congrArg Answer.flag (m.contains_eq key), rfl⟩
  | size => exact ⟨congrArg Answer.count (Array.length_toList).symm, rfl⟩
  | entries | keys | values => exact ⟨rfl, rfl⟩

/-- **All requests** are, by induction on them. -/
theorem run_eq (m : OrderedMap α) (rs : List (Request α)) :
    (Request.run OrderedMap.serve m rs).1 = (Request.run Entries.serve m.toList rs).1 ∧
      (Request.run OrderedMap.serve m rs).2.toList = (Request.run Entries.serve m.toList rs).2 := by
  induction rs generalizing m with
  | nil => exact ⟨rfl, rfl⟩
  | cons r rs ih =>
    obtain ⟨hanswer, hlist⟩ := m.serve_eq r
    obtain ⟨hanswers, hlist'⟩ := ih (m.serve r).2
    rw [hlist] at hanswers hlist'
    exact ⟨congrArg₂ List.cons hanswer hanswers, hlist'⟩

theorem insertAll_append (m : OrderedMap α) (entries others : List (String × α)) :
    m.insertAll (entries ++ others) = (m.insertAll entries).insertAll others :=
  List.foldl_append ..

/-- A map that is made of some entries is the list that is made of them. -/
theorem toList_insertAll (m : OrderedMap α) (entries : List (String × α)) :
    (m.insertAll entries).toList = entries.foldl (fun es e => Entries.put e.1 e.2 es) m.toList := by
  induction entries generalizing m with
  | nil => rfl
  | cons e entries ih =>
    have hlist : (m.insert e.1 e.2).toList = Entries.put e.1 e.2 m.toList :=
      (m.toList_getThenInsert? e.1 e.2).2
    rw [List.foldl_cons, ← hlist, ← ih (m.insert e.1 e.2)]
    rfl

theorem toList_ofList (entries : List (String × α)) :
    (ofList entries).toList = Entries.ofList entries := toList_insertAll empty entries

/-- What is made of entries with different keys are these entries. -/
theorem toList_ofList_of_nodup {entries : List (String × α)} (h : (entries.map Prod.fst).Nodup) :
    (ofList entries).toList = entries :=
  (toList_ofList entries).trans (Entries.ofList_of_nodup h)

theorem ofList_concat (entries : List (String × α)) (e : String × α) :
    ofList (entries ++ [e]) = (ofList entries).insert e.1 e.2 :=
  insertAll_append empty entries [e]

/-- Of a repeated key, the first place counts. By induction from the right. -/
theorem keys_ofList (entries : List (String × α)) :
    (ofList entries).keys = (entries.map Prod.fst).eraseDups := by
  induction entries using List.reverseRecOn with
  | nil => rfl
  | append_singleton entries e ih =>
    have hmem : ((ofList entries).get? e.1).isSome ↔ e.1 ∈ entries.map Prod.fst := by
      rw [isSome_get?_iff, ih, List.mem_eraseDups]
    rw [ofList_concat, keys_insert, isSome_index, ih, List.map_append, List.map_singleton,
      Entries.eraseDups_concat]
    exact ite_congr (propext hmem) (fun _ => rfl) fun _ => rfl

/-- Of a repeated key, the last value counts. By induction from the right. -/
theorem get?_ofList (entries : List (String × α)) (key : String) :
    (ofList entries).get? key = Entries.get? key entries.reverse := by
  induction entries using List.reverseRecOn with
  | nil => exact OrderedMap.get?_empty key
  | append_singleton entries e ih =>
    rw [ofList_concat, get?_insert, ih, List.reverse_append]
    simp only [List.reverse_singleton, List.singleton_append, Entries.get?, eq_comm]

/-- What a map holds is told by its keys in order and by what is found under them. -/
theorem toList_eq (m : OrderedMap α) :
    m.toList = m.keys.filterMap fun k => (m.get? k).map fun v => (k, v) := by
  have hfound (e : String × α) (he : e ∈ m.toList) :
      (m.get? e.1).map (fun v => (e.1, v)) = some e := by
    rw [get?_eq_some_iff.mpr he, Option.map_some]
  calc m.toList
    _ = m.toList.filterMap some := List.filterMap_some.symm
    _ = m.toList.filterMap fun e => (m.get? e.1).map fun v => (e.1, v) :=
      List.filterMap_congr fun e he => (hfound e he).symm
    _ = m.keys.filterMap fun k => (m.get? k).map fun v => (k, v) := by
      rw [OrderedMap.keys, List.filterMap_map]
      rfl

/-- A request looks at no place but one that the index gives. -/
theorem Request.lt_size_of_place? {r : Request α} (h : r.place? m = some i) :
    i < m.entries.size := by
  cases r with
  | insert key _ | remove key | change key _ | get key => exact lt_size h
  | contains _ | size | entries | keys | values => cases h

end OrderedMap

open OrderedMap in
/-- **Ordered maps refine association lists.** A map is made of some entries, or of none, and
requests are carried out on it. Then all answers are those that the list of entries gives, and what
the map holds is what the list holds. No key has two entries, the index has the keys of the entries
and each at its place, and no request would read or write beyond the entries. -/
theorem map_refines_entries {α : Type} (entries : List (String × α)) (rs : List (Request α)) :
    let served := Request.run OrderedMap.serve (.ofList entries) rs
    let expected := Request.run Entries.serve (Entries.ofList entries) rs
    served.1 = expected.1 ∧ served.2.toList = expected.2 ∧ served.2.keys.Nodup ∧
      (∀ (key : String) (i : Nat), served.2.index[key]? = some i ↔ served.2.keys[i]? = some key) ∧
      ∀ (r : Request α) i, r.place? served.2 = some i → i < served.2.entries.size := by
  intro served expected
  obtain ⟨hanswers, hlist⟩ := (ofList entries).run_eq rs
  rw [toList_ofList] at hanswers hlist
  refine ⟨hanswers, hlist, served.2.nodup_keys, fun key i => ?_, fun r i => ?_⟩
  · rw [served.2.indexed key i, keys_eq, List.getElem?_map, Array.getElem?_toList]
  · exact Request.lt_size_of_place?

end ScriptLang
