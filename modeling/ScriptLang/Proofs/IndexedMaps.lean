import Mathlib.Data.List.Nodup
import Mathlib.Data.List.Perm.Subperm
import ScriptLang.Value.OrderedMap

/-!
# The index of an ordered map

A look-up in an ordered map goes through the index, and the order of its keys is that of the
entries. The two never part, since a map carries the proof that they agree.

* `OrderedMap.nodup_keys` — no key has two entries.
* `OrderedMap.get?_eq_some_iff` says that a look-up finds the entries. `OrderedMap.get?_insert` and
  `OrderedMap.get?_modify` say what is found after a change, `OrderedMap.keys_insert` and
  `OrderedMap.keys_modify` what becomes of the keys.
-/

namespace ScriptLang.OrderedMap

variable {α : Type} {m : OrderedMap α} {key k : String} {v : α} {f : α → α} {i : Nat}

@[simp] theorem get?_empty (key : String) : (empty : OrderedMap α).get? key = none := by
  simp [get?, empty]

/-! ### The two ways through a change -/

theorem lt_size (h : m.index[key]? = some i) : i < m.entries.size := m.indexed.lt_size h

theorem toRaw_insert_of_some (h : m.index[key]? = some i) (v : α) :
    (m.insert key v).toRaw = m.toRaw.modifyAt i fun _ => v := by
  simp only [insert, getThenInsert?, Raw.getThenInsert?, h]

theorem toRaw_insert_of_none (h : m.index[key]? = none) (v : α) :
    (m.insert key v).toRaw = m.toRaw.append key v := by
  simp only [insert, getThenInsert?, Raw.getThenInsert?, h]

theorem toRaw_modify_of_some (h : m.index[key]? = some i) (f : α → α) :
    (m.modify key f).toRaw = m.toRaw.modifyAt i f := by
  simp only [modify, Raw.modify, h]

theorem modify_of_none (h : m.index[key]? = none) (f : α → α) : m.modify key f = m := by
  simp only [modify, Raw.modify, h]

/-! ### Keys -/

theorem keys_eq (m : OrderedMap α) : m.keys = m.entries.toList.map (·.1) := rfl

@[simp] theorem length_keys (m : OrderedMap α) : m.keys.length = m.size := by
  simp [keys, toList, size]

/-- A change of values keeps the keys. -/
theorem keys_modifyAt (r : Raw α) (i : Nat) (f : α → α) :
    (r.modifyAt i f).entries.toList.map (·.1) = r.entries.toList.map (·.1) := by
  refine List.ext_getElem? fun j => ?_
  rw [List.getElem?_map, List.getElem?_map, Array.getElem?_toList, Array.getElem?_toList]
  exact Raw.key_modify r.entries i j f

/-- An insertion of a key that is there keeps the keys, and of another one puts it at their end. -/
theorem keys_insert (m : OrderedMap α) (key : String) (v : α) :
    (m.insert key v).keys = if (m.index[key]?).isSome then m.keys else m.keys ++ [key] := by
  cases h : m.index[key]? with
  | none =>
    rw [keys_eq, keys_eq, toRaw_insert_of_none h]
    simp [Raw.append]
  | some i =>
    rw [keys_eq, keys_eq, toRaw_insert_of_some h, keys_modifyAt, Option.isSome_some, if_pos rfl]

theorem keys_modify (m : OrderedMap α) (key : String) (f : α → α) :
    (m.modify key f).keys = m.keys := by
  cases h : m.index[key]? with
  | none => rw [modify_of_none h]
  | some i => rw [keys_eq, keys_eq, toRaw_modify_of_some h, keys_modifyAt]

/-- The keys before an insertion are the first ones after it. -/
theorem keys_prefix_insert (m : OrderedMap α) (key : String) (v : α) :
    m.keys <+: (m.insert key v).keys := by
  rw [keys_insert]
  split
  · exact List.prefix_rfl
  · exact List.prefix_append _ _

/-- No key has two entries. -/
theorem nodup_keys (m : OrderedMap α) : m.keys.Nodup := by
  rw [keys_eq, List.nodup_iff_getElem?_ne_getElem?]
  intro i j hij hj he
  rw [List.length_map, Array.length_toList] at hj
  simp only [List.getElem?_map, Array.getElem?_toList] at he
  have hkey : m.entries[j]?.map (·.1) = some m.entries[j].1 := by
    rw [Array.getElem?_eq_getElem hj, Option.map_some]
  -- The index gives one position for the key, and both positions are it.
  have hi := (m.indexed _ i).mpr (he.trans hkey)
  have hj' := (m.indexed _ j).mpr hkey
  rw [hj', Option.some.injEq] at hi
  omega

/-! ### Look-ups -/

/-- A change of values at the position of a key, seen from a look-up. -/
theorem get?_of_modifyAt {m' : OrderedMap α} (h : m.index[key]? = some i)
    (hm' : m'.toRaw = m.toRaw.modifyAt i f) (k : String) :
    m'.get? k = if k = key then (m.get? key).map f else m.get? k := by
  unfold get?
  rw [hm']
  dsimp only [Raw.modifyAt]
  by_cases hk : k = key
  · subst hk
    simp only [h, if_true, Array.getElem?_modify, Option.map_map]
    rfl
  · rw [if_neg hk]
    cases hj : m.index[k]? with
    | none => rfl
    | some j =>
      -- The keys differ, so their positions do.
      have hij : i ≠ j := fun hij => hk (m.indexed.key_unique h (hij ▸ hj))
      simp only [Array.getElem?_modify, if_neg hij]

/-- What is found are the entries. -/
theorem get?_eq_some_iff : m.get? key = some v ↔ (key, v) ∈ m.toList := by
  unfold toList get?
  rw [Array.mem_toList_iff, Array.mem_iff_getElem?]
  constructor
  · intro h
    cases hi : m.index[key]? with
    | none =>
      rw [hi] at h
      cases h
    | some i =>
      rw [hi] at h
      obtain ⟨e, he, rfl⟩ := Option.map_eq_some_iff.mp h
      have hkey := (m.indexed key i).mp hi
      rw [he, Option.map_some, Option.some.injEq] at hkey
      exact ⟨i, by rw [he, ← hkey]⟩
  · rintro ⟨i, hi⟩
    have hkey : m.index[key]? = some i := (m.indexed key i).mpr (by rw [hi, Option.map_some])
    rw [hkey]
    simp only [hi, Option.map_some]

/-- A key is found exactly if it is there. -/
theorem isSome_get?_iff : (m.get? key).isSome ↔ key ∈ m.keys := by
  rw [Option.isSome_iff_exists, keys, List.mem_map]
  constructor
  · rintro ⟨v, hv⟩
    exact ⟨(key, v), get?_eq_some_iff.mp hv, rfl⟩
  · rintro ⟨⟨k, v⟩, he, rfl⟩
    exact ⟨v, get?_eq_some_iff.mpr he⟩

/-- Two maps have the same keys if there are as many of them, and those of the first one are keys of
the second one. -/
theorem mem_keys_iff_iff (m m' : OrderedMap α) :
    (∀ k, k ∈ m.keys ↔ k ∈ m'.keys) ↔ m.size = m'.size ∧ m.keys ⊆ m'.keys := by
  rw [← length_keys, ← length_keys]
  constructor
  · intro h
    have hperm := (List.perm_ext_iff_of_nodup m.nodup_keys m'.nodup_keys).mpr h
    exact ⟨hperm.length_eq, hperm.subset⟩
  · rintro ⟨hlength, hsub⟩ k
    have hsubperm := List.subperm_of_subset m.nodup_keys hsub
    exact (hsubperm.perm_of_length_le (Nat.le_of_eq hlength.symm)).mem_iff

/-- The index knows the keys that are found. -/
theorem isSome_index (m : OrderedMap α) (key : String) :
    (m.index[key]?).isSome = (m.get? key).isSome := by
  unfold get?
  cases hi : m.index[key]? with
  | none => rfl
  | some i => simp [lt_size hi]

/-- A new key goes to the end. -/
theorem toList_insert_of_not_mem (hk : key ∉ m.keys) (v : α) :
    (m.insert key v).toList = m.toList ++ [(key, v)] := by
  have hnone : m.index[key]? = none := by
    rw [← Option.not_isSome_iff_eq_none, isSome_index, isSome_get?_iff]
    exact hk
  rw [toList, toRaw_insert_of_none hnone]
  exact Array.toList_push

/-- What is found after an insertion. -/
theorem get?_insert (m : OrderedMap α) (key : String) (v : α) (k : String) :
    (m.insert key v).get? k = if k = key then some v else m.get? k := by
  cases h : m.index[key]? with
  | some i =>
    rw [get?_of_modifyAt h (toRaw_insert_of_some h v)]
    have hi := lt_size h
    have hfound : m.get? key = some m.entries[i].2 := by
      simp only [get?, h, Array.getElem?_eq_getElem hi, Option.map_some]
    rw [hfound, Option.map_some]
  | none =>
    unfold get?
    rw [toRaw_insert_of_none h]
    dsimp only [Raw.append]
    rw [Std.HashMap.getElem?_insert]
    by_cases hk : k = key
    · subst hk
      simp
    · rw [if_neg (by simpa using Ne.symm hk), if_neg hk]
      cases hj : m.index[k]? with
      | none => rfl
      | some j =>
        -- An old key is at an old position.
        have hlt := lt_size hj
        simp only [Array.getElem?_push, if_neg (Nat.ne_of_lt hlt)]

/-- What is found after a change. -/
theorem get?_modify (m : OrderedMap α) (key : String) (f : α → α) (k : String) :
    (m.modify key f).get? k = if k = key then (m.get? key).map f else m.get? k := by
  cases h : m.index[key]? with
  | some i => exact get?_of_modifyAt h (toRaw_modify_of_some h f) k
  | none =>
    rw [modify_of_none h]
    by_cases hk : k = key
    · subst hk
      simp [get?, h]
    · rw [if_neg hk]

end ScriptLang.OrderedMap
