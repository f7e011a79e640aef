import Std.Data.HashMap

/-!
# Maps that remember the order of insertion

An `OrderedMap` is a list of entries with pairwise distinct keys, beside an index from keys to
positions that makes look-ups fast. That the two agree is part of the structure
(`OrderedMap.indexed`).

* The changes are those of an `OrderedMap.Raw`, of which it is not known that the two agree.
  `Raw.modifyAt` changes a value in place, `Raw.append` puts a new key at the end, and `Raw.eraseAt`
  takes an entry out and moves the later ones up, in the index as well. Each keeps `Raw.Indexed`.
* Replacing the value of a key keeps its position; a new key goes to the end.
* `OrderedMap.erase` takes one entry out and keeps the order of the others.
* `OrderedMap.getThenInsert?` and `OrderedMap.getThenErase?` also tell the value that was there.
* `OrderedMap.toList` is the view: every operation is an operation on that list of entries.
-/

namespace ScriptLang

/-- Entries in order, and an index of keys, which need not be theirs. -/
structure OrderedMap.Raw (α : Type) where
  /-- The entries, in order. -/
  entries : Array (String × α)
  /-- The position of every key. -/
  index : Std.HashMap String Nat

namespace OrderedMap.Raw

variable {α : Type} {r : Raw α} {key k : String} {i : Nat}

/-- Changes the value at a position. -/
def modifyAt (r : Raw α) (i : Nat) (f : α → α) : Raw α :=
  { r with entries := r.entries.modify i fun e => (e.1, f e.2) }

/-- Puts a key at the end. -/
def append (r : Raw α) (key : String) (value : α) : Raw α :=
  let position := r.entries.size
  ⟨r.entries.push (key, value), r.index.insert key position⟩

/-- Takes the entry of a key out, which is at a position; the entries after it move up by one. -/
def eraseAt (r : Raw α) (key : String) (i : Nat) : Raw α :=
  ⟨r.entries.eraseIdxIfInBounds i,
    (r.index.erase key).map fun _ j => if i < j then j - 1 else j⟩

/-- Gives a key a value: in place if it has an entry, else at the end. Also tells the value that it
had. -/
def getThenInsert? (r : Raw α) (key : String) (value : α) : Option α × Raw α :=
  match r.index[key]? with
  | some i => (r.entries[i]?.map (·.2), r.modifyAt i fun _ => value)
  | none => (none, r.append key value)

/-- Changes the value of a key, if it has one. -/
def modify (r : Raw α) (key : String) (f : α → α) : Raw α :=
  match r.index[key]? with
  | some i => r.modifyAt i f
  | none => r

/-- Takes the entry of a key out, if it has one. Also tells the value that it had. -/
def getThenErase? (r : Raw α) (key : String) : Option α × Raw α :=
  match r.index[key]? with
  | some i => (r.entries[i]?.map (·.2), r.eraseAt key i)
  | none => (none, r)

/-! ### The index and the entries -/

/-- **Indexed.** A key is at a position exactly if the index says so. -/
def Indexed (r : Raw α) : Prop :=
  ∀ (key : String) (i : Nat), r.index[key]? = some i ↔ r.entries[i]?.map (·.1) = some key

/-- The index names positions of entries. -/
theorem Indexed.lt_size (hr : r.Indexed) (h : r.index[key]? = some i) : i < r.entries.size := by
  have hkey := (hr key i).mp h
  rcases Nat.lt_or_ge i r.entries.size with hi | hi
  · exact hi
  · rw [Array.getElem?_eq_none hi] at hkey
    cases hkey

/-- Two keys at one position are one key. -/
theorem Indexed.key_unique (hr : r.Indexed) (h : r.index[key]? = some i)
    (h' : r.index[k]? = some i) : k = key := by
  have hkey := (hr key i).mp h
  rw [(hr k i).mp h', Option.some.injEq] at hkey
  exact hkey

/-- Changing values leaves every key at its position. -/
theorem key_modify (es : Array (String × α)) (i j : Nat) (f : α → α) :
    (es.modify i fun e => (e.1, f e.2))[j]?.map (·.1) = es[j]?.map (·.1) := by
  rw [Array.getElem?_modify]
  by_cases hij : i = j
  · rw [if_pos hij, Option.map_map]
    rfl
  · rw [if_neg hij]

theorem Indexed.modifyAt (hr : r.Indexed) (i : Nat) (f : α → α) : (r.modifyAt i f).Indexed := by
  intro key j
  dsimp only [Raw.modifyAt]
  rw [key_modify]
  exact hr key j

theorem Indexed.append (hr : r.Indexed) (h : r.index[key]? = none) (value : α) :
    (r.append key value).Indexed := by
  intro k j
  dsimp only [Raw.append]
  rw [Std.HashMap.getElem?_insert, Array.getElem?_push]
  by_cases hj : j = r.entries.size
  · -- The new position has the new key. No old key is there.
    rw [if_pos hj, Option.map_some, Option.some.injEq]
    by_cases hk : key = k
    · simp [hk, hj]
    · rw [if_neg (by simpa using hk)]
      refine iff_of_false (fun h' => ?_) hk
      have hlt := hr.lt_size h'
      omega
  · rw [if_neg hj]
    by_cases hk : key = k
    · subst hk
      refine iff_of_false (by simpa using Ne.symm hj) fun h' => ?_
      rw [(hr key j).mpr h'] at h
      cases h
    · rw [if_neg (by simpa using hk)]
      exact hr k j

/-- The entries that are left, after the one at `i` is taken out. -/
theorem getElem?_eraseIdx (es : Array (String × α)) (h : i < es.size) (j : Nat) :
    (es.eraseIdxIfInBounds i)[j]? = if j < i then es[j]? else es[j + 1]? := by
  rw [← Array.eraseIdx_eq_eraseIdxIfInBounds h, Array.getElem?_eraseIdx]

theorem Indexed.eraseAt (hr : r.Indexed) (h : r.index[key]? = some i) :
    (r.eraseAt key i).Indexed := by
  intro k j
  dsimp only [Raw.eraseAt]
  rw [Std.HashMap.getElem?_map, Std.HashMap.getElem?_erase, getElem?_eraseIdx _ (hr.lt_size h)]
  by_cases hk : key = k
  · -- The key is gone from the index, and its one entry from the entries.
    subst hk
    rw [if_pos (beq_self_eq_true key)]
    refine iff_of_false (by simp) fun hj => ?_
    split at hj
    · have hplace := (hr key j).mpr hj
      rw [h, Option.some.injEq] at hplace
      omega
    · have hplace := (hr key (j + 1)).mpr hj
      rw [h, Option.some.injEq] at hplace
      omega
  · -- Another key was in front of the entry or behind it, but not at its position.
    rw [if_neg (by simpa using hk), Option.map_eq_some_iff]
    have hne : r.index[k]? ≠ some i := fun hki => hk (hr.key_unique hki h)
    constructor
    · rintro ⟨p, hp, rfl⟩
      have hpi : p ≠ i := by
        rintro rfl
        exact hne hp
      have hkey := (hr k p).mp hp
      by_cases hlt : i < p
      · rw [if_pos hlt, if_neg (by omega), Nat.sub_add_cancel (by omega)]
        exact hkey
      · rw [if_neg hlt, if_pos (by omega)]
        exact hkey
    · intro hj
      split at hj
      · exact ⟨j, (hr k j).mpr hj, if_neg (by omega)⟩
      · refine ⟨j + 1, (hr k (j + 1)).mpr hj, ?_⟩
        rw [if_pos (by omega), Nat.add_sub_cancel]

theorem Indexed.getThenInsert? (hr : r.Indexed) (key : String) (value : α) :
    (r.getThenInsert? key value).2.Indexed := by
  unfold Raw.getThenInsert?
  cases h : r.index[key]? with
  | some i => exact hr.modifyAt i _
  | none => exact hr.append h value

theorem Indexed.modify (hr : r.Indexed) (key : String) (f : α → α) :
    (r.modify key f).Indexed := by
  unfold Raw.modify
  cases r.index[key]? with
  | some i => exact hr.modifyAt i f
  | none => exact hr

theorem Indexed.getThenErase? (hr : r.Indexed) (key : String) :
    (r.getThenErase? key).2.Indexed := by
  unfold Raw.getThenErase?
  cases h : r.index[key]? with
  | some i => exact hr.eraseAt h
  | none => exact hr

end OrderedMap.Raw

/-- A map from texts that remembers the order of insertion. -/
structure OrderedMap (α : Type) extends OrderedMap.Raw α where
  indexed : toRaw.Indexed

namespace OrderedMap

variable {α : Type}

/-- The map without entries. -/
def empty : OrderedMap α := ⟨⟨#[], {}⟩, fun _ _ => by simp⟩

instance : Inhabited (OrderedMap α) := ⟨empty⟩

/-- Number of entries. -/
def size (m : OrderedMap α) : Nat := m.entries.size

/-- Whether there is no entry. -/
def isEmpty (m : OrderedMap α) : Bool := m.entries.isEmpty

/-- Whether a key has an entry. -/
def contains (m : OrderedMap α) (key : String) : Bool := m.index.contains key

/-- The value of a key. -/
def get? (m : OrderedMap α) (key : String) : Option α :=
  match m.index[key]? with
  | some i => m.entries[i]?.map (·.2)
  | none => none

/-- The entries, in order. -/
def toList (m : OrderedMap α) : List (String × α) := m.entries.toList

/-- The keys, in order. -/
def keys (m : OrderedMap α) : List String := m.toList.map (·.1)

/-- The values, in order. -/
def values (m : OrderedMap α) : List α := m.toList.map (·.2)

/-- Gives a key a value: in place if it has an entry, else at the end. Also tells the value that it
had. -/
def getThenInsert? (m : OrderedMap α) (key : String) (value : α) : Option α × OrderedMap α :=
  let r := m.toRaw.getThenInsert? key value
  (r.1, ⟨r.2, m.indexed.getThenInsert? key value⟩)

/-- Gives a key a value: in place if it has an entry, else at the end. -/
def insert (m : OrderedMap α) (key : String) (value : α) : OrderedMap α :=
  (m.getThenInsert? key value).2

/-- Changes the value of a key, if it has one. -/
def modify (m : OrderedMap α) (key : String) (f : α → α) : OrderedMap α :=
  ⟨m.toRaw.modify key f, m.indexed.modify key f⟩

/-- Takes the entry of a key out; the entries after it move up by one. Also tells the value that the
key had. -/
def getThenErase? (m : OrderedMap α) (key : String) : Option α × OrderedMap α :=
  let r := m.toRaw.getThenErase? key
  (r.1, ⟨r.2, m.indexed.getThenErase? key⟩)

/-- Takes the entry of a key out; the entries after it move up by one. -/
def erase (m : OrderedMap α) (key : String) : OrderedMap α := (m.getThenErase? key).2

/-- Inserts entries one after the other. -/
def insertAll (m : OrderedMap α) (entries : List (String × α)) : OrderedMap α :=
  entries.foldl (fun m e => m.insert e.1 e.2) m

/-- The map of some entries; of a repeated key the first position and the last value count. -/
def ofList (entries : List (String × α)) : OrderedMap α := empty.insertAll entries

end OrderedMap

end ScriptLang
