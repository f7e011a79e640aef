import ScriptLang.Proofs.Outlines
import ScriptLang.Proofs.SparedContainers

/-!
# Indexed writes

A program writes into a container by the statement `set c[k] v` or by the function `update`, and
reads by the expression `c[k]` or by the function `get`. The two ways do the same.

* `Heap.Refused` says when a write is refused, and with which code. Objects take every key.
* `Heap.ElementWrite` is what a write does to an array: it replaces one element, or fills the array
  up to it with null. `Heap.Writes` is what it does to an object.
* A key of an object is read again after the write. It is printed then as before, since printing
  depends on what the key reaches (`Heap.print_of_agree`), and that is not the object.
* `indexed_writes_agree` is the main statement.
-/

namespace ScriptLang

open Eval

namespace Heap

variable {h h' : Heap} {c key v w : Value} {r : Ref} {path : List Container} {o : Outline}

/-! ### Printing depends on what is reached -/

/-- **Agree.** The containers that a value reaches hold the same in both heaps. -/
def Agree (h h' : Heap) (v : Value) : Prop :=
  ∀ w, h.Reaches v w →
    (∀ r, w = .array r → h'.array r = h.array r) ∧ ∀ r, w = .object r → h'.object r = h.object r

theorem Agree.inside (ha : h.Agree h' v) (hw : h.Contains v w) : h.Agree h' w :=
  fun u hu => ha u (hu.head hw)

/-- A walk sees the same where heaps agree. By induction on the walk. -/
theorem Outlines.of_agree (ho : h.Outlines path v o) (ha : h.Agree h' v) :
    h'.Outlines path v o := by
  induction ho with
  | scalar hv => exact .scalar hv
  | again hv hc => exact .again hv hc
  | @array path r inside hr _ ih =>
    have hsame := (ha _ .refl).1 r rfl
    have hi : ∀ w ∈ (h'.array r).toList, h'.Outlines (.array r :: path) w (inside w) := by
      rw [hsame]
      exact fun w hw => ih w hw (ha.inside (contains_array hw))
    exact hsame ▸ Outlines.array hr hi
  | @object path r inside hr _ ih =>
    have hsame := (ha _ .refl).2 r rfl
    have hi : ∀ w ∈ (h'.object r).values, h'.Outlines (.object r :: path) w (inside w) := by
      rw [hsame]
      exact fun w hw => ih w hw (ha.inside (contains_object hw))
    exact hsame ▸ Outlines.object hr hi

theorem print_of_agree (ha : h.Agree h' v) : h'.print v = h.print v := by
  obtain ⟨o, ho⟩ := h.exists_outlines [] v
  exact ((ho.of_agree ha).print_eq).trans ho.print_eq.symm

/-- A write to an object that is not reached leaves the printed form as it is. -/
theorem Writes.print_eq {name : String} (hw : h.Writes h' r name v)
    (hk : ¬ h.Reaches key (.object r)) : h'.print key = h.print key := by
  refine print_of_agree fun w hkw => ⟨fun s _ => by rw [array, array, hw.arrays], fun s hs => ?_⟩
  exact hw.elsewhere s fun hsr => hk (hsr ▸ hs ▸ hkw)

/-! ### One element -/

/-- **ElementWrite.** The second heap is the first one but for one array, which has a value at an
index and null in between, if the index lies after its end. -/
structure ElementWrite (h h' : Heap) (r : Ref) (i : Nat) (v : Value) : Prop where
  objects : h'.objects = h.objects
  identities : h'.identities = h.identities
  size : h'.arrays.size = h.arrays.size
  elsewhere : ∀ s, s ≠ r → h'.array s = h.array s
  length : (h'.array r).size = max (h.array r).size (i + 1)
  here : (h'.array r)[i]? = some v
  others : ∀ j < (h.array r).size, j ≠ i → (h'.array r)[j]? = (h.array r)[j]?
  gap : ∀ j < i, (h.array r).size ≤ j → (h'.array r)[j]? = some .null
  bound : (h.array r).size < (h'.array r).size → (h'.array r).size ≤ maxCollectionLength

section Elements

variable {items : Array Value} {i j : Nat}

theorem size_putAt (items : Array Value) (i : Nat) (v : Value) :
    (putAt items i v).size = max items.size (i + 1) := by
  unfold putAt
  split
  · rw [Array.size_set!]
    omega
  · simp only [Array.size_push, Array.size_append, Array.size_replicate]
    omega

theorem getElem?_putAt (items : Array Value) (i : Nat) (v : Value) (j : Nat) :
    (putAt items i v)[j]? =
      if j = i then some v else if j < items.size then items[j]?
      else if j < i then some .null else none := by
  unfold putAt
  split
  · rename_i hi
    rw [Array.set!_eq_setIfInBounds, Array.getElem?_setIfInBounds]
    grind
  · rename_i hi
    rw [Array.getElem?_push, Array.getElem?_append, Array.getElem?_replicate]
    grind

/-- Storing an element, where it is not refused. -/
theorem elementWrite_putAt (hr : r < h.arrays.size) (v : Value)
    (hi : ¬ ((h.array r).size ≤ i ∧ maxCollectionLength ≤ i)) :
    h.ElementWrite (h.modifyArray r fun items => putAt items i v) r i v := by
  have hself : (h.modifyArray r fun items => putAt items i v).array r =
      putAt (h.array r) i v := by
    simp [array, modifyArray, hr, Array.getElem_modify_self]
  refine ⟨rfl, rfl, by simp [modifyArray], fun s hs => ?_, ?_, ?_, fun j hj hne => ?_,
    fun j hj hge => ?_, fun hgrown => ?_⟩
  · simp [array, modifyArray, Array.getElem?_modify, Ne.symm hs]
  · rw [hself, size_putAt]
  · rw [hself, getElem?_putAt, if_pos rfl]
  · rw [hself, getElem?_putAt, if_neg hne, if_pos hj]
  · rw [hself, getElem?_putAt, if_neg (Nat.ne_of_lt hj), if_neg (Nat.not_lt.mpr hge), if_pos hj]
  · rw [hself, size_putAt] at hgrown ⊢
    omega

end Elements

/-! ### Refusal -/

/-- **Refused.** A write is refused, with a code: the container is an array, and the key is no whole
number, or it is negative, or the array would grow beyond what arrays may hold. -/
inductive Refused (h : Heap) (key : Value) : Value → String → Prop
  | notWhole {s : Ref} (hk : ∀ x z, key = .number x → Binary.toInt? x ≠ some z) :
    Refused h key (.array s) "TYPE001"
  | negative {s : Ref} {x z} (hk : key = .number x) (hx : Binary.toInt? x = some z) (hz : z < 0) :
    Refused h key (.array s) "INDEX001"
  | tooLarge {s : Ref} {x z} (hk : key = .number x) (hx : Binary.toInt? x = some z)
    (hn : (h.array s).size ≤ z) (hz : maxCollectionLength ≤ z) :
    Refused h key (.array s) "INDEX001"

/-- A write is refused with one code only. -/
theorem Refused.unique {code code' : String} (hc : h.Refused key c code)
    (hc' : h.Refused key c code') : code = code' := by
  cases hc with
  | notWhole hk =>
    cases hc' with
    | notWhole => rfl
    | negative hk' hx | tooLarge hk' hx => exact absurd hx (hk _ _ hk')
  | negative hk hx | tooLarge hk hx =>
    cases hc' with
    | notWhole hk' => exact absurd hx (hk' _ _ hk)
    | negative | tooLarge => rfl

/-- An index that is not too large is not refused. -/
theorem not_refused {x : Float} {i : Nat} {code : String} (hk : key = .number x)
    (hx : Binary.toInt? x = some (i : Int))
    (hsmall : ¬ ((h.array r).size ≤ i ∧ maxCollectionLength ≤ i)) :
    ¬ h.Refused key (.array r) code := by
  subst hk
  rintro (hk | ⟨hk, hx', hz⟩ | ⟨hk, hx', hn, hz⟩)
  · exact hk _ _ rfl hx
  · cases hk
    cases hx.symm.trans hx'
    omega
  · cases hk
    cases hx.symm.trans hx'
    omega

/-- **Put.** What a write does to the heap: to an array at the index that the key is, to an object
under the text that the key is printed as. -/
inductive Put (h : Heap) (key v : Value) : Value → Heap → Prop
  | element {s : Ref} {h₁ x} {i : Nat} (hk : key = .number x)
    (hx : Binary.toInt? x = some (i : Int)) (hw : h.ElementWrite h₁ s i v) :
    Put h key v (.array s) h₁
  | entry {s : Ref} {h₁} (hw : h.Writes h₁ s (h.print key) v) : Put h key v (.object s) h₁

/-- **Writable.** The value is a container of the heap. An array has less than `2 ^ 63` elements,
as no memory holds more, and an object is not inside of the key. -/
inductive Writable (h : Heap) (key : Value) : Value → Prop
  | array {s : Ref} (hs : s < h.arrays.size) (hn : (h.array s).size < 2 ^ 63) :
    Writable h key (.array s)
  | object {s : Ref} (hs : s < h.objects.size) (hk : ¬ h.Reaches key (.object s)) :
    Writable h key (.object s)

end Heap

/-! ### Keys of arrays -/

namespace Value

variable {x : Float} {z : Int} {n : Nat}

/-- An index is cut to a number of 64 bits. -/
theorem integer?_number (hx : Binary.toInt? x = some z) :
    (number x).integer? = some (Binary.clampInt64 z) := by
  rw [integer?, hx, Option.map_some]

theorem clampInt64_eq (z : Int) :
    Binary.clampInt64 z = max (-9223372036854775808) (min z 9223372036854775807) := rfl

theorem integer?_number_of_lt (hx : Binary.toInt? x = some (n : Int)) (hn : n < 2 ^ 63) :
    (number x).integer? = some (n : Int) := by
  rw [integer?_number hx, clampInt64_eq]
  congr 1
  omega

/-- **Taken.** What an array of so many elements does with a key: of the kinds of keys that it does
not take, a large one may have been cut, but that leaves it large. -/
inductive Taken (n : Nat) (key : Value) : Prop
  | notWhole (hk : ∀ x z, key = .number x → Binary.toInt? x ≠ some z) (hi : key.integer? = none)
  | negative {x : Float} {z i : Int} (hk : key = .number x) (hx : Binary.toInt? x = some z)
    (hz : z < 0) (hi : key.integer? = some i) (hneg : i < 0)
  | tooLarge {x : Float} {z : Int} {i : Nat} (hk : key = .number x)
    (hx : Binary.toInt? x = some z) (hn : n ≤ z) (hz : maxCollectionLength ≤ z)
    (hi : key.integer? = some (i : Int)) (hlarge : n ≤ i ∧ maxCollectionLength ≤ i)
  | index {x : Float} {i : Nat} (hk : key = .number x) (hx : Binary.toInt? x = some (i : Int))
    (hi : key.integer? = some (i : Int)) (hsmall : ¬ (n ≤ i ∧ maxCollectionLength ≤ i))

theorem taken (hn : n < 2 ^ 63) (key : Value) : Taken n key := by
  have hmax : maxCollectionLength = 16777216 := rfl
  by_cases hwhole : ∃ x z, key = .number x ∧ Binary.toInt? x = some z
  · obtain ⟨x, z, rfl, hx⟩ := hwhole
    have hi := integer?_number hx
    rw [clampInt64_eq] at hi
    rcases Int.lt_or_le z 0 with hz | hz
    · exact .negative rfl hx hz hi (by omega)
    · obtain ⟨i, rfl⟩ := Int.eq_ofNat_of_zero_le hz
      by_cases hlarge : n ≤ i ∧ maxCollectionLength ≤ i
      · -- A number beyond 64 bits is cut to the largest there is, which is too large as well.
        refine .tooLarge (i := min i 9223372036854775807) rfl hx (by omega) (by omega) ?_ (by omega)
        rw [hi]
        congr 1
        omega
      · exact .index rfl hx (integer?_number_of_lt hx (by omega)) hlarge
  · push Not at hwhole
    refine .notWhole hwhole ?_
    cases key with
    | number x =>
      cases hx : Binary.toInt? x with
      | none => rw [integer?, hx, Option.map_none]
      | some z => exact absurd hx (hwhole x z rfl)
    | _ => rfl

end Value

/-! ### Two ways to write -/

namespace Eval

variable {α : Type} {m : Machine} {c key v : Value} {r : Ref}

/-- **Ends.** A write that is told by its result ends so: with the new heap, or with an error of the
code and no change. -/
def Ends (m : Machine) (written : Except String Heap) (a : α) (o : Outcome α) : Prop :=
  match written with
  | .ok h => o = .ok a { m with heap := h }
  | .error code => ∃ d, o = .error d m ∧ d.code = code

/-- **Written.** What a write does, for the statement and the function alike. -/
structure Written (m : Machine) (c key v : Value) (written : Except String Heap) : Prop where
  refused : ∀ code, written = .error code ↔ m.heap.Refused key c code
  put : ∀ h, written = .ok h → m.heap.Put key v c h
  store : ∀ loc keyLoc, Ends m written () (storeAt c key v loc keyLoc m)
  update : ∀ loc, Ends m written v (CoreFn.updateOn c key v loc m)

/-- A write that is refused, if both ways fail with the code of the refusal. -/
theorem written_of_refused {code : String} (hc : m.heap.Refused key c code)
    (hs : ∀ loc keyLoc, ∃ d, storeAt c key v loc keyLoc m = .error d m ∧ d.code = code)
    (hu : ∀ loc, ∃ d, CoreFn.updateOn c key v loc m = .error d m ∧ d.code = code) :
    Written m c key v (.error code) where
  refused code' := by
    constructor
    · intro h
      cases h
      exact hc
    · intro hc'
      rw [hc.unique hc']
  put := nofun
  store := hs
  update := hu

section Index

variable {i : Nat}

theorem storeAt_of_integer (hi : key.integer? = some (i : Int)) (v : Value)
    (loc keyLoc : Location) : storeAt (.array r) key v loc keyLoc = storeElement r i v keyLoc := by
  dsimp only [storeAt]
  rw [hi]
  exact if_neg (Int.not_lt.mpr (Int.natCast_nonneg i))

theorem updateOn_of_integer (hi : key.integer? = some (i : Int)) (v : Value) (loc : Location) :
    CoreFn.updateOn (.array r) key v loc = storeElement r i v loc >>= fun _ => pure v := by
  dsimp only [CoreFn.updateOn]
  rw [hi]
  exact if_neg (Int.not_lt.mpr (Int.natCast_nonneg i))

end Index

/-- An array takes a key or refuses it, and both ways look at the key in the same order. -/
theorem exists_written_array (hr : r < m.heap.arrays.size) (hn : (m.heap.array r).size < 2 ^ 63)
    (key v : Value) : ∃ written, Written m (.array r) key v written := by
  cases Value.taken hn key with
  | notWhole hk hi =>
    refine ⟨_, written_of_refused (.notWhole hk) (fun loc keyLoc => ?_) fun loc => ?_⟩
    · dsimp only [storeAt]
      rw [hi]
      exact ⟨_, rfl, rfl⟩
    · dsimp only [CoreFn.updateOn]
      rw [hi]
      exact ⟨_, rfl, rfl⟩
  | negative hk hx hz hi hneg =>
    refine ⟨_, written_of_refused (.negative hk hx hz) (fun loc keyLoc => ?_) fun loc => ?_⟩
    · dsimp only [storeAt]
      rw [hi]
      dsimp only
      rw [if_pos hneg]
      exact ⟨_, rfl, rfl⟩
    · dsimp only [CoreFn.updateOn]
      rw [hi]
      dsimp only
      rw [if_pos hneg]
      exact ⟨_, rfl, rfl⟩
  | tooLarge hk hx hn hz hi hlarge =>
    -- The index that is used may be cut, but the code is that of the key as it is written.
    refine ⟨_, written_of_refused (.tooLarge hk hx hn hz) (fun loc keyLoc => ?_) fun loc => ?_⟩
    · rw [storeAt_of_integer hi]
      exact ⟨_, storeElement_of_large v keyLoc hlarge, rfl⟩
    · rw [updateOn_of_integer hi]
      exact ⟨_, bind_of_error (storeElement_of_large v loc hlarge), rfl⟩
  | @index _ i hk hx hi hsmall =>
    -- Nothing is refused, and one element of the array is written.
    refine ⟨.ok (m.heap.modifyArray r fun items => putAt items i v),
      fun code => ⟨nofun, fun h => ?_⟩, fun h hh => ?_, fun loc keyLoc => ?_, fun loc => ?_⟩
    · exact absurd h (Heap.not_refused hk hx hsmall)
    · cases hh
      exact .element hk hx (Heap.elementWrite_putAt hr v hsmall)
    · rw [storeAt_of_integer hi]
      exact storeElement_of_small v keyLoc hsmall
    · rw [updateOn_of_integer hi]
      exact bind_of_ok (storeElement_of_small v loc hsmall)

/-- An object takes every key that does not reach it. -/
theorem written_object (hr : r < m.heap.objects.size) (hk : ¬ m.heap.Reaches key (.object r))
    (v : Value) :
    Written m (.object r) key v
      (.ok (m.heap.modifyObject r fun entries => entries.insert (m.heap.print key) v)) where
  refused code := ⟨nofun, nofun⟩
  put h hh := by
    cases hh
    exact .entry (Heap.writes_insert hr _ v)
  store _ _ := storeMember_of_not_reaches hk
  update _ := bind_of_ok (storeMember_of_not_reaches hk)

theorem exists_written (hc : m.heap.Writable key c) (v : Value) :
    ∃ written, Written m c key v written := by
  cases hc with
  | array hr hn => exact exists_written_array hr hn key v
  | object hr hk => exact ⟨_, written_object hr hk v⟩

/-! ### Reading what was written -/

theorem getAt_of_getElem? {items : Array Value} {i : Nat} (hi : items[i]? = some v) :
    getAt items (i : Int) = v := by
  rw [getAt, if_neg (Int.not_lt.mpr (Int.natCast_nonneg i)), Int.toNat_natCast,
    Array.getD_eq_getD_getElem?, hi, Option.getD_some]

/-- What is put is found again, by the expression and the function alike. -/
theorem elementOf_put {n : Machine} (hc : m.heap.Writable key c)
    (hp : m.heap.Put key v c n.heap) (loc : Location) :
    elementOf c key loc n = .ok v n ∧ CoreFn.getFrom c key loc n = .ok v n := by
  cases hp with
  | @element r _ x i hk hx hw =>
    -- The index is within an array of memory, so it was not cut.
    have hi : key.integer? = some (i : Int) := by
      cases hc with
      | array hr hn =>
        have hmax : maxCollectionLength = 16777216 := rfl
        have hlength := hw.length
        have hbound := hw.bound
        exact hk ▸ Value.integer?_number_of_lt hx (by omega)
    have hhere : getAt (n.heap.array r) (i : Int) = v := getAt_of_getElem? hw.here
    constructor
    · dsimp only [elementOf]
      rw [hi]
      exact congrArg (Outcome.ok · n) hhere
    · dsimp only [CoreFn.getFrom]
      rw [hi]
      exact congrArg (Outcome.ok · n) hhere
  | @entry r _ hw =>
    cases hc with
    | object hr hk =>
      -- After the write the key is printed as before, so it is looked up where it was stored.
      have hhere : (n.heap.object r).get? (n.heap.keyOf key) = some v := by
        rw [Heap.keyOf, hw.print_eq hk, hw.here]
      have hread : Outcome.ok (.ofOption ((n.heap.object r).get? (n.heap.keyOf key))) n =
          .ok v n := by rw [hhere, Value.ofOption]
      exact ⟨hread, hread⟩

end Eval

/-! ### The main statement -/

/-- **Indexed writes.** Into a container of the heap, a value is written under a key by a statement
whose operands have been computed, and by the function `update`. Both end with the same heap, or
both with an error of the same code, which changes nothing; and that is exactly if the write is
refused. What was written is read again, by an expression whose operands have been computed and by
the function `get`. -/
theorem indexed_writes_agree {m : Machine} {c key : Value} (hc : m.heap.Writable key c)
    (v : Value) : ∃ written : Except String Heap,
      (∀ code, written = .error code ↔ m.heap.Refused key c code) ∧
      (∀ ev loc e index value m₀ m₁ m₂, ev.expr e m₀ = .ok c m₁ →
        ev.expr index m₁ = .ok key m₂ → ev.expr value m₂ = .ok v m →
        Eval.Ends m written (.normal v) (Eval.statement ev (.setIndex loc e index value) m₀)) ∧
      (∀ ev loc, Eval.Ends m written v ((Builtin.core .update).call ev [c, key, v] loc m)) ∧
      ∀ h, written = .ok h → m.heap.Put key v c h ∧
        (∀ ev loc e index safe m₀ m₁, ev.expr e m₀ = .ok c m₁ →
          ev.expr index m₁ = .ok key { m with heap := h } →
          Eval.expression ev (.index loc e index safe) m₀ = .ok v { m with heap := h }) ∧
        ∀ ev loc, (Builtin.core .get).call ev [c, key] loc { m with heap := h } =
          .ok v { m with heap := h } := by
  obtain ⟨written, hw⟩ := exists_written hc v
  refine ⟨written, hw.refused, fun ev loc e index value m₀ m₁ m₂ he hi hv => ?_,
    fun ev loc => hw.update loc, fun h hh => ⟨hw.put h hh, ?_, fun ev loc => ?_⟩⟩
  · have hstatement : Eval.statement ev (.setIndex loc e index value) m₀ =
        (storeAt c key v e.location index.location >>= fun _ => pure (.normal v)) m :=
      (bind_of_ok he).trans ((bind_of_ok hi).trans (bind_of_ok hv))
    have hstore := hw.store e.location index.location
    rw [hstatement]
    revert hstore
    cases written with
    | ok h => exact fun hstore => bind_of_ok hstore
    | error code =>
      rintro ⟨d, hstore, hd⟩
      exact ⟨d, bind_of_error hstore, hd⟩
  · intro ev loc e index safe m₀ m₁ he hi
    refine (bind_of_ok he).trans ?_
    have hnull : ¬ (safe && c.isNull) = true := by
      cases hc <;> simp [Value.isNull]
    rw [if_neg hnull]
    exact (bind_of_ok hi).trans (elementOf_put hc (hw.put h hh) e.location).1
  · exact (elementOf_put hc (hw.put h hh) loc).2

/-- An object takes a text as a key, and an array does not. -/
theorem indexed_writes_agree_text :
    let m : Machine := { heap := { arrays := #[#[.null]], objects := #[.empty] } }
    let update := (Builtin.core .update).call (.ofBound 0)
    m.heap.Writable (.string "k") (.object 0) ∧ m.heap.Writable (.string "k") (.array 0) ∧
      (∃ h, update [.object 0, .string "k", .bool true] default m =
          .ok (.bool true) { m with heap := h } ∧ m.heap.Writes h 0 "k" (.bool true)) ∧
      ∃ d, update [.array 0, .string "k", .bool true] default m = .error d m ∧
        d.code = "TYPE001" := by
  intro m update
  have hobject : m.heap.Writable (.string "k") (.object 0) := by
    refine .object (by decide) fun h => ?_
    rcases h.cases_head with h | ⟨w, ⟨c, hc, _⟩, _⟩
    · cases h
    · cases hc
  have harray : m.heap.Writable (.string "k") (.array 0) := .array (by decide) (by decide)
  refine ⟨hobject, harray, ?_, ?_⟩
  · obtain ⟨written, hrefused, _, hupdate, hput⟩ := indexed_writes_agree hobject (.bool true)
    have hcall := hupdate (.ofBound 0) default
    cases written with
    | error code => cases (hrefused code).mp rfl
    | ok h =>
      cases (hput h rfl).1 with
      | entry hw => exact ⟨h, hcall, hw⟩
  · obtain ⟨written, hrefused, _, hupdate, _⟩ := indexed_writes_agree harray (.bool true)
    have hcall := hupdate (.ofBound 0) default
    obtain rfl := (hrefused "TYPE001").mpr (.notWhole nofun)
    exact hcall

end ScriptLang
