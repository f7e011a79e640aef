import ScriptLang.Proofs.ConfinedLibrary
import ScriptLang.Proofs.KeyWrites
import ScriptLang.Proofs.PlainValues

/-!
# What the library leaves alone

Arguments of library functions are references into the heap, so a function could change what its
caller holds, or give back something that the caller goes on to share. It does neither, but for
three functions that are there to write.

* `Heap.Grows` says that all containers are as they were, and `Heap.GrowsBut` leaves one of them
  out. That the heap grows is a habit (`growth`), so all functions have it that neither call back
  nor write. An error and a halt come before anything is written.
* `CoreFn.Wrote` says what the three functions that write do to their first argument.
* `Eval.Makes` is the judgement that the result is a new container. Who writes to it later writes to
  nothing that was there before (`Heap.New.spares`). `Eval.Creates` says that there is a result, and
  what it holds.
* `JsonFn.sealed_ofJson`: all that the value of a document holds, at any depth, is new.
* `builtins_spare_containers` is the main statement.
-/

namespace ScriptLang

open Eval

/-! ### Heaps -/

namespace Heap

variable {h h' h'' : Heap} {c : Container} {v w : Value} {r : Ref}

/-- The container is there. -/
def Has (h : Heap) : Container → Prop
  | .array r => r < h.arrays.size
  | .object r => r < h.objects.size

/-- **GrowsBut.** The second heap has the containers of the first one, as they are there but for one
of them. -/
structure GrowsBut (c : Container) (h h' : Heap) : Prop where
  arrays : h.arrays.size ≤ h'.arrays.size
  objects : h.objects.size ≤ h'.objects.size
  array : ∀ r < h.arrays.size, c ≠ .array r → h'.array r = h.array r
  object : ∀ r < h.objects.size, c ≠ .object r → h'.object r = h.object r

/-- **New.** The container is in the second heap, and not in the first one. -/
structure New (h h' : Heap) (c : Container) : Prop where
  absent : ¬ h.Has c
  present : h'.Has c

theorem Grows.has (hg : h.Grows h') (hc : h.Has c) : h'.Has c := by
  cases c with
  | array r => exact hc.trans_le hg.arrays
  | object r => exact hc.trans_le hg.objects

theorem growsBut_modifyArray (h : Heap) (r : Ref) (f : Array Value → Array Value) :
    h.GrowsBut (.array r) (h.modifyArray r f) where
  arrays := by simp [modifyArray]
  objects := Nat.le_refl _
  array s hs hne := by
    have hrs : r ≠ s := fun hrs => hne (congrArg _ hrs)
    simp [Heap.array, modifyArray, Array.getElem?_modify, hrs]
  object _ _ _ := rfl

theorem growsBut_modifyObject (h : Heap) (r : Ref) (f : OrderedMap Value → OrderedMap Value) :
    h.GrowsBut (.object r) (h.modifyObject r f) where
  arrays := Nat.le_refl _
  objects := by simp [modifyObject]
  array _ _ _ := rfl
  object s hs hne := by
    have hrs : r ≠ s := fun hrs => hne (congrArg _ hrs)
    simp [Heap.object, modifyObject, Array.getElem?_modify, hrs]

/-- A new container is none of those before it, so a change of it spares them all. -/
theorem New.spares (hc : h.New h' c) (hg : h.Grows h') (hw : h'.GrowsBut c h'') : h.Grows h'' where
  arrays := hg.arrays.trans hw.arrays
  objects := hg.objects.trans hw.objects
  array r hr := by
    have hne : c ≠ .array r := fun hcr => hc.absent (hcr ▸ hr)
    exact (hw.array r (hr.trans_le hg.arrays) hne).trans (hg.array r hr)
  object r hr := by
    have hne : c ≠ .object r := fun hcr => hc.absent (hcr ▸ hr)
    exact (hw.object r (hr.trans_le hg.objects) hne).trans (hg.object r hr)

/-- What is new in the end was not there earlier on. -/
theorem New.after (hg : h.Grows h') (hc : h'.New h'' c) : h.New h'' c :=
  ⟨mt hg.has hc.absent, hc.present⟩

theorem New.before (hc : h.New h' c) (hg : h'.Grows h'') : h.New h'' c :=
  ⟨hc.absent, hg.has hc.present⟩

theorem new_allocArray (h : Heap) (items : Array Value) :
    h.New (h.allocArray items).2 (.array h.arrays.size) :=
  ⟨Nat.lt_irrefl _, by simp [Has, allocArray]⟩

theorem new_allocObject (h : Heap) (entries : OrderedMap Value) :
    h.New (h.allocObject entries).2 (.object h.objects.size) :=
  ⟨Nat.lt_irrefl _, by simp [Has, allocObject]⟩

/-! ### Sealed heaps -/

/-- **Made.** The value is no container, or a new one. -/
def Made (h h' : Heap) (v : Value) : Prop := ∀ c, v.container? = some c → h.New h' c

/-- **Sealed.** What containers hold that the first heap lacks was made since. -/
def Sealed (h h' : Heap) : Prop := ∀ c, ¬ h.Has c → ∀ w ∈ h'.children c, h.Made h' w

theorem made_scalar (hv : v.container? = none) : h.Made h' v := by
  intro c hc
  rw [hv] at hc
  cases hc

theorem Made.of_new (hv : v.container? = some c) (hc : h.New h' c) : h.Made h' v := by
  intro d hd
  rwa [Option.some.inj (hd.symm.trans hv)]

theorem Made.grows (hv : h.Made h' v) (hg : h'.Grows h'') : h.Made h'' v :=
  fun c hc => (hv c hc).before hg

theorem children_of_not_has (hc : ¬ h.Has c) : h.children c = [] := by
  cases c with
  | array r =>
    have hr : h.arrays[r]? = none := Array.getElem?_eq_none (Nat.le_of_not_lt hc)
    simp [children, Heap.array, hr]
  | object r =>
    have hr : h.objects[r]? = none := Array.getElem?_eq_none (Nat.le_of_not_lt hc)
    simp [children, Heap.object, hr, OrderedMap.values, OrderedMap.toList, OrderedMap.empty]

theorem sealed_refl (h : Heap) : h.Sealed h := by
  intro c hc w hw
  rw [children_of_not_has hc] at hw
  cases hw

/-- From what is new, no way leads back. By induction on the way. -/
theorem Sealed.made_of_reaches (hs : h.Sealed h') (hv : h.Made h' v) (hr : h'.Reaches v w) :
    h.Made h' w := by
  induction hr with
  | refl => exact hv
  | tail _ hstep ih =>
    obtain ⟨c, hc, hw⟩ := hstep
    exact hs c (ih c hc).absent _ hw

theorem Sealed.allocArray (hs : h.Sealed h') {items : Array Value}
    (hi : ∀ w ∈ items.toList, h.Made h' w) : h.Sealed (h'.allocArray items).2 := by
  intro c hc w hw
  refine Made.grows ?_ (h'.grows_allocArray items)
  by_cases hnew : c = .array h'.arrays.size
  · subst hnew
    rw [children, array_allocArray] at hw
    exact hi w hw
  · refine hs c hc w ?_
    cases c with
    | array r =>
      have hr : r ≠ h'.arrays.size := fun hr => hnew (congrArg _ hr)
      simpa [children, Heap.array, Heap.allocArray, Array.getElem?_push, hr] using hw
    | object r => exact hw

theorem Sealed.allocObject (hs : h.Sealed h') {entries : OrderedMap Value}
    (hi : ∀ w ∈ entries.values, h.Made h' w) : h.Sealed (h'.allocObject entries).2 := by
  intro c hc w hw
  refine Made.grows ?_ (h'.grows_allocObject entries)
  by_cases hnew : c = .object h'.objects.size
  · subst hnew
    rw [children, object_allocObject] at hw
    exact hi w hw
  · refine hs c hc w ?_
    cases c with
    | array r => exact hw
    | object r =>
      have hr : r ≠ h'.objects.size := fun hr => hnew (congrArg _ hr)
      simpa [children, Heap.object, Heap.allocObject, Array.getElem?_push, hr] using hw

end Heap

/-! ### Growth as a habit -/

/-- **Growth.** That all containers stay as they are is a habit. -/
def growth (loc : Location) : Habit loc where
  holds x := ∀ m : Machine, m.heap.Grows (x m).machine.heap
  basic _ hx m := hx m ▸ .refl m.heap
  andThen {_ _ x f} hx hf m := by
    have h := hx m
    change m.heap.Grows (Eval.andThen x f m).machine.heap
    unfold Eval.andThen
    cases e : x m with
    | ok a n =>
      rw [e] at h
      exact h.trans (hf a n)
    | error d n => rwa [e] at h
    | halt r n => rwa [e] at h
  array items m := m.heap.grows_allocArray items
  object entries m := m.heap.grows_allocObject entries

variable {loc : Location} {α : Type}

/-- **Makes.** The result, if there is one, is a new container. -/
structure Eval.Makes (x : Eval Value) : Prop where
  new : ∀ {m v m'}, x m = .ok v m' → ∃ c, v.container? = some c ∧ m.heap.New m'.heap c

namespace Eval.Makes

@[simp] theorem of_newArray (items : Array Value) : Makes (newArray items) := by
  refine ⟨fun {m v m'} h => ?_⟩
  cases h
  exact ⟨_, rfl, m.heap.new_allocArray items⟩

@[simp] theorem of_newList (items : List Value) : Makes (newList items) := of_newArray _

@[simp] theorem of_newObject (entries : OrderedMap Value) : Makes (newObject entries) := by
  refine ⟨fun {m v m'} h => ?_⟩
  cases h
  exact ⟨_, rfl, m.heap.new_allocObject entries⟩

@[simp] theorem of_fail (f : RuntimeFault) (loc : Location) : Makes (fail f loc) := ⟨nofun⟩

@[simp] theorem of_refuse (r : Report) (loc : Location) : Makes (refuse r loc) := ⟨nofun⟩

@[simp] theorem of_halt (r : Halt) : Makes (halt r) := ⟨nofun⟩

@[simp] theorem ite {c : Prop} [Decidable c] {x y : Eval Value} (hx : Makes x) (hy : Makes y) :
    Makes (if c then x else y) := by
  split
  · exact hx
  · exact hy

/-- What is new after a computation that spares the heap was not there before it. -/
theorem after (loc : Location) {x : Eval α} {f : α → Eval Value} (hx : (growth loc).Follows x)
    (hf : ∀ a, Makes (f a)) : Makes (x >>= f) := by
  refine ⟨fun {m v m'} h => ?_⟩
  obtain ⟨a, m₁, hx₁, hf₁⟩ := exists_ok_of_bind h
  obtain ⟨c, hc, hnew⟩ := (hf a).new hf₁
  have hg := hx.holds m
  rw [hx₁] at hg
  exact ⟨c, hc, hnew.after hg⟩

end Eval.Makes

/-! ### What is created -/

/-- An array with these elements. -/
def Heap.IsArray (xs : List Value) (h : Heap) (v : Value) : Prop :=
  ∃ r, v = .array r ∧ (h.array r).toList = xs

/-- An object with these entries, in this order. -/
def Heap.IsObject (es : List (String × Value)) (h : Heap) (v : Value) : Prop :=
  ∃ r, v = .object r ∧ (h.object r).toList = es

/-- **Creates.** The computation gives a new container of which a property holds, and leaves those
that were there as they are. -/
def Eval.Creates (x : Eval Value) (m : Machine) (P : Heap → Value → Prop) : Prop :=
  ∃ v c m', x m = .ok v m' ∧ v.container? = some c ∧ m.heap.New m'.heap c ∧
    m.heap.Grows m'.heap ∧ P m'.heap v

namespace Eval.Creates

variable {x y : Eval Value} {f : Value → Eval Value} {m n : Machine} {P Q : Heap → Value → Prop}

theorem of_newList (xs : List Value) (m : Machine) : (newList xs).Creates m (Heap.IsArray xs) :=
  ⟨_, _, _, rfl, rfl, m.heap.new_allocArray _, m.heap.grows_allocArray _, _, rfl,
    congrArg Array.toList (m.heap.array_allocArray xs.toArray)⟩

theorem of_newObject (entries : OrderedMap Value) (m : Machine) :
    (newObject entries).Creates m (Heap.IsObject entries.toList) :=
  ⟨_, _, _, rfl, rfl, m.heap.new_allocObject _, m.heap.grows_allocObject _, _, rfl,
    congrArg OrderedMap.toList (m.heap.object_allocObject entries)⟩

/-- What ends as a computation that creates something does, creates it as well. -/
theorem of_eq (hy : y.Creates m P) (h : x m = y m) : x.Creates m P := by
  obtain ⟨v, c, m', hv, hcreated⟩ := hy
  exact ⟨v, c, m', h.trans hv, hcreated⟩

/-- A computation goes on with what another one has created. What is created in the end is new to
the first heap, since this one has only grown. -/
theorem bind (hx : x.Creates m P)
    (hf : ∀ v m', m.heap.Grows m'.heap → P m'.heap v → (f v).Creates m' Q) :
    (x >>= f).Creates m Q := by
  obtain ⟨v, -, m', hv, -, -, hgrows, hP⟩ := hx
  obtain ⟨w, c, m'', hw, hc, hnew, hgrows', hQ⟩ := hf v m' hgrows hP
  exact ⟨w, c, m'', (bind_of_ok hv).trans hw, hc, hnew.after hgrows, hgrows.trans hgrows', hQ⟩

end Eval.Creates

/-! ### Functions that make containers -/

namespace CoreFn

theorem makes_sliceOf (r : Ref) (args : List Value) (loc : Location) :
    Makes (sliceOf r args loc) :=
  .after loc (follows_readArray r) fun _ => .after loc (follows_sliceEnd ..) fun _ =>
    .after loc (follows_sliceEnd ..) fun _ => .of_newArray _

theorem makes_rangeOf (args : List Value) (loc : Location) : Makes (rangeOf args loc) := by
  refine .after loc (follows_numbersOf args) fun xs => .ite (.of_refuse ..) ?_
  dsimp only
  exact .ite (.of_refuse ..) (.ite (.of_fail ..) (.of_newArray _))

theorem makes_listing (function : String) (v : Value) (loc : Location)
    {ofArray : Array Value → Eval Value} {ofObject : OrderedMap Value → Eval Value}
    (ha : ∀ items, Makes (ofArray items)) (ho : ∀ entries, Makes (ofObject entries)) :
    Makes (listing function v loc ofArray ofObject) := by
  unfold listing
  split
  · exact .after loc (follows_readArray _) ha
  · exact .after loc (follows_readObject _) ho
  · exact .of_refuse ..
  · exact .of_refuse ..

/-- The functions whose result is a new container. -/
def makes : CoreFn → Bool
  | .slice | .range | .keys | .values | .entries => true
  | _ => false

theorem makes_run {f : CoreFn} (hf : f.makes = true) (args : List Value) (loc : Location) :
    Makes (f.run args loc) := by
  cases f with
  | slice =>
    dsimp only [run]
    split
    · exact makes_sliceOf ..
    · exact .of_refuse ..
  | range => exact makes_rangeOf args loc
  | keys | values => exact makes_listing _ _ _ (fun _ => by simp) fun _ => by simp
  | entries =>
    exact makes_listing _ _ _ (fun _ => .after loc (follows_pairs _) fun _ => .of_newList _)
      fun _ => .after loc (follows_pairs _) fun _ => .of_newList _
  | _ => cases hf

end CoreFn

namespace ArrayFn

/-- The functions whose result is a new container. -/
def makes : ArrayFn → Bool
  | .slice | .sort | .reverse | .concat | .unique | .intersection | .unionOf | .difference => true
  | _ => false

theorem makes_ofTwo (function : String) (args : List Value) (loc : Location)
    (f : List Value → List Value → List Value) : Makes (ofTwo function args loc f) :=
  .after loc (Argument.follows_array ..) fun _ => .after loc (Argument.follows_array ..) fun _ =>
    .after loc (follows_readArray _) fun _ => .after loc (follows_readArray _) fun _ =>
      .of_newList _

theorem makes_run (ev : Evaluator) {f : ArrayFn} (hf : f.makes = true) (args : List Value)
    (loc : Location) : Makes (f.run ev args loc) := by
  cases f with
  | slice => exact .after loc (Argument.follows_array ..) fun r => CoreFn.makes_sliceOf r args loc
  | sort =>
    refine .after loc (follows_items ..) fun xs => .after loc (.of_lookHeap _) fun found => ?_
    split
    · exact .of_newList _
    · exact .of_halt _
  | reverse => exact .after loc (follows_items ..) fun _ => .of_newArray _
  | concat => exact .after loc (follows_concatFrom ..) fun _ => .of_newArray _
  | unique => exact .after loc (follows_items ..) fun _ => .of_newList _
  | intersection | unionOf | difference => simp [run, makes_ofTwo]
  | _ => cases hf

end ArrayFn

namespace ObjectFn

/-- The functions whose result is a new container. -/
def makes : ObjectFn → Bool
  | .merge | .pick | .omit | .fromEntries => true
  | .mapValues | .isEmpty => false

theorem makes_run (ev : Evaluator) {f : ObjectFn} (hf : f.makes = true) (args : List Value)
    (loc : Location) : Makes (f.run ev args loc) := by
  cases f with
  | merge => exact .after loc (follows_mergeFrom ..) fun _ => .of_newObject _
  | pick | «omit» => exact .after loc (follows_withKeys ..) fun _ => .of_newObject _
  | fromEntries =>
    exact .after loc (follows_arrayArg ..) fun _ => .after loc (follows_readArray _) fun _ =>
      .after loc (follows_entriesFrom ..) fun _ => .of_newObject _
  | mapValues | isEmpty => cases hf

end ObjectFn

/-- Splitting a text gives a new array. -/
theorem StringFn.makes_split (args : List Value) (loc : Location) :
    Makes (StringFn.split.run args loc) :=
  .after loc (Argument.follows_text ..) fun _ => .after loc (follows_separator ..) fun _ =>
    .after loc (follows_count ..) fun _ => .of_newList _

namespace Builtin

/-- The functions whose result is a new container. A text that is read as a document may also give a
scalar. -/
def makes : Builtin → Bool
  | .core f => f.makes
  | .array f => f.makes
  | .object f => f.makes
  | .string .split => true
  | _ => false

theorem makes_call (ev : Evaluator) {b : Builtin} (hb : b.makes = true) (args : List Value)
    (loc : Location) : Makes (b.call ev args loc) := by
  refine .ite ?_ (.of_fail ..)
  cases b with
  | core f => exact f.makes_run hb args loc
  | array f => exact f.makes_run ev hb args loc
  | object f => exact f.makes_run ev hb args loc
  | string f =>
    cases f with
    | split => exact StringFn.makes_split args loc
    | _ => cases hb
  | _ => cases hb

end Builtin

/-! ### What is inside of a new container -/

namespace CoreFn

variable {m m' : Machine} {entries : List (String × Value)} {vs : List Value}

theorem grows_pairs (h : pairs entries m = .ok vs m') : m.heap.Grows m'.heap := by
  have hg := ((follows_pairs entries : (growth default).Follows (pairs entries)).holds) m
  rwa [h] at hg

/-- Pairs are new arrays. -/
theorem new_pairs (h : pairs entries m = .ok vs m') :
    ∀ w ∈ vs, ∃ c, w.container? = some c ∧ m.heap.New m'.heap c := by
  induction entries generalizing m vs with
  | nil =>
    cases h
    exact nofun
  | cons e rest ih =>
    obtain ⟨pair, m₁, hpair, h⟩ := Eval.exists_ok_of_bind h
    obtain ⟨others, m₂, hrest, h⟩ := Eval.exists_ok_of_bind h
    cases h
    obtain ⟨c, hc, hnew⟩ := (Makes.of_newList _).new hpair
    have hgrows : m.heap.Grows m₁.heap := by
      cases hpair
      exact m.heap.grows_allocArray _
    refine List.forall_mem_cons.mpr ⟨⟨c, hc, hnew.before (grows_pairs hrest)⟩, fun w hw => ?_⟩
    obtain ⟨d, hd, hnew'⟩ := ih hrest w hw
    exact ⟨d, hd, hnew'.after hgrows⟩

/-- Pairs are made one after the other, and then an array of them. -/
theorem new_pairList {v : Value}
    (h : (pairs entries >>= fun vs => newList vs : Eval Value) m = .ok v m') :
    ∀ w, m'.heap.Contains v w → ∃ c, w.container? = some c ∧ m.heap.New m'.heap c := by
  obtain ⟨vs, m₁, hvs, h⟩ := Eval.exists_ok_of_bind h
  cases h
  rintro w ⟨c, hc, hw⟩
  cases hc
  have hitems : (m₁.heap.allocArray vs.toArray).2.array m₁.heap.arrays.size = vs.toArray :=
    m₁.heap.array_allocArray _
  change w ∈ ((m₁.heap.allocArray vs.toArray).2.array m₁.heap.arrays.size).toList at hw
  rw [hitems] at hw
  obtain ⟨c, hc, hnew⟩ := new_pairs hvs w hw
  exact ⟨c, hc, hnew.before (m₁.heap.grows_allocArray _)⟩

/-- The elements of a list of entries are new as well. -/
theorem new_entries {loc : Location} {args : List Value} {v : Value}
    (h : CoreFn.entries.run args loc m = .ok v m') :
    ∀ w, m'.heap.Contains v w → ∃ c, w.container? = some c ∧ m.heap.New m'.heap c := by
  change listing "entries" (Argument.nth args 1) loc _ _ m = _ at h
  generalize Argument.nth args 1 = collection at h
  cases collection with
  | array r => exact new_pairList h
  | object r => exact new_pairList h
  | _ => cases h

end CoreFn

theorem OrderedMap.mem_values_insert {entries : OrderedMap Value} {key : String} {v w : Value}
    (hw : w ∈ (entries.insert key v).values) : w ∈ entries.values ∨ w = v := by
  obtain ⟨⟨k, u⟩, he, rfl⟩ := List.mem_map.mp hw
  have hu := OrderedMap.get?_eq_some_iff.mpr he
  rw [OrderedMap.get?_insert] at hu
  split at hu
  · exact .inr (Option.some.inj hu).symm
  · exact .inl (List.mem_map_of_mem (OrderedMap.get?_eq_some_iff.mp hu))

namespace JsonFn

variable {h : Heap} {m m' : Machine} {v : Value}

theorem grows_ofJson {j : JsonValue} (hj : ofJson j m = .ok v m') : m.heap.Grows m'.heap := by
  have hg := ((follows_ofJson j : (growth default).Follows (ofJson j)).holds) m
  rwa [hj] at hg

mutual

/-- The value of a document is new at any depth: the heap stays sealed against an earlier one. -/
theorem sealed_ofJson : (j : JsonValue) → ∀ {m v m'}, h.Grows m.heap → h.Sealed m.heap →
    ofJson j m = .ok v m' → h.Sealed m'.heap ∧ h.Made m'.heap v
  | .null, m, v, m', hg, hs, hj | .bool _, m, v, m', hg, hs, hj | .number _, m, v, m', hg, hs, hj
  | .string _, m, v, m', hg, hs, hj => by
    unfold ofJson at hj
    cases hj
    exact ⟨hs, Heap.made_scalar rfl⟩
  | .array items, m, v, m', hg, hs, hj => by
    unfold ofJson at hj
    obtain ⟨done, m₁, hitems, hj⟩ := Eval.exists_ok_of_bind hj
    cases hj
    obtain ⟨hg₁, hs₁, hdone⟩ := sealed_ofItems items hg hs (List.forall_mem_nil _) hitems
    exact ⟨hs₁.allocArray hdone, .of_new rfl ((m₁.heap.new_allocArray done).after hg₁)⟩
  | .object members, m, v, m', hg, hs, hj => by
    unfold ofJson at hj
    obtain ⟨done, m₁, hmembers, hj⟩ := Eval.exists_ok_of_bind hj
    cases hj
    obtain ⟨hg₁, hs₁, hdone⟩ := sealed_ofMembers members hg hs (List.forall_mem_nil _) hmembers
    exact ⟨hs₁.allocObject hdone, .of_new rfl ((m₁.heap.new_allocObject done).after hg₁)⟩

theorem sealed_ofItems : (js : List JsonValue) → ∀ {m done items m'}, h.Grows m.heap →
    h.Sealed m.heap → (∀ w ∈ done.toList, h.Made m.heap w) → ofItems js done m = .ok items m' →
    h.Grows m'.heap ∧ h.Sealed m'.heap ∧ ∀ w ∈ items.toList, h.Made m'.heap w
  | [], m, done, items, m', hg, hs, hd, hj => by
    unfold ofItems at hj
    cases hj
    exact ⟨hg, hs, hd⟩
  | j :: rest, m, done, items, m', hg, hs, hd, hj => by
    unfold ofItems at hj
    obtain ⟨v, m₁, hv, hj⟩ := Eval.exists_ok_of_bind hj
    obtain ⟨hs₁, hmade⟩ := sealed_ofJson j hg hs hv
    have hgrows := grows_ofJson hv
    refine sealed_ofItems rest (hg.trans hgrows) hs₁ (fun w hw => ?_) hj
    rcases Array.mem_push.mp (Array.mem_toList_iff.mp hw) with hw | rfl
    · exact (hd w (Array.mem_toList_iff.mpr hw)).grows hgrows
    · exact hmade

theorem sealed_ofMembers : (js : List (String × JsonValue)) → ∀ {m done entries m'},
    h.Grows m.heap → h.Sealed m.heap → (∀ w ∈ done.values, h.Made m.heap w) →
    ofMembers js done m = .ok entries m' →
    h.Grows m'.heap ∧ h.Sealed m'.heap ∧ ∀ w ∈ entries.values, h.Made m'.heap w
  | [], m, done, entries, m', hg, hs, hd, hj => by
    unfold ofMembers at hj
    cases hj
    exact ⟨hg, hs, hd⟩
  | (k, j) :: rest, m, done, entries, m', hg, hs, hd, hj => by
    unfold ofMembers at hj
    obtain ⟨v, m₁, hv, hj⟩ := Eval.exists_ok_of_bind hj
    obtain ⟨hs₁, hmade⟩ := sealed_ofJson j hg hs hv
    have hgrows := grows_ofJson hv
    refine sealed_ofMembers rest (hg.trans hgrows) hs₁ (fun w hw => ?_) hj
    rcases OrderedMap.mem_values_insert hw with hw | rfl
    · exact (hd w hw).grows hgrows
    · exact hmade

end

/-- Whatever is inside of a document that was read is new. -/
theorem made_parse {loc : Location} {args : List Value} {w : Value}
    (h : JsonFn.parse.run args loc m = .ok v m') (hw : m'.heap.Reaches v w) :
    m.heap.Made m'.heap w := by
  dsimp only [run] at h
  generalize Argument.nth args 1 = source at h
  cases source with
  | string s =>
    dsimp only at h
    cases hread : JsonReader.read s with
    | ok j =>
      rw [hread] at h
      obtain ⟨hs, hv⟩ := sealed_ofJson j (.refl _) m.heap.sealed_refl h
      exact hs.made_of_reaches hv hw
    | error e =>
      rw [hread] at h
      cases h
  | _ => cases h

end JsonFn

/-! ### Functions that write -/

section Elements

variable {r : Ref} {i : Nat} {m : Machine}

theorem Eval.storeElement_of_large (v : Value) (loc : Location)
    (hi : (m.heap.array r).size ≤ i ∧ maxCollectionLength ≤ i) :
    storeElement r i v loc m = fail (.indexTooLarge i) loc m := by
  refine (bind_of_ok rfl).trans ?_
  dsimp only
  rw [if_pos (by simpa using hi)]

theorem Eval.storeElement_of_small (v : Value) (loc : Location)
    (hi : ¬ ((m.heap.array r).size ≤ i ∧ maxCollectionLength ≤ i)) :
    storeElement r i v loc m =
      .ok () { m with heap := m.heap.modifyArray r fun items => putAt items i v } := by
  refine (bind_of_ok rfl).trans ?_
  dsimp only
  rw [if_neg (by simpa using hi)]
  rfl

end Elements

namespace CoreFn

/-- **Wrote.** What a function does to its first argument, with its result and the heap after it. -/
inductive Wrote (h : Heap) : CoreFn → List Value → Value → Heap → Prop
  | push (r : Ref) (v : Value) :
    Wrote h .push [.array r, v] (.array r) (h.modifyArray r (·.push v))
  | pop {r : Ref} {v : Value} (hv : (h.array r).back? = some v) :
    Wrote h .pop [.array r] v (h.modifyArray r (·.pop))
  | element {r : Ref} {key : Value} {i : Nat} (v : Value) (hi : key.integer? = some (i : Int)) :
    Wrote h .update [.array r, key, v] v (h.modifyArray r (putAt · i v))
  | member (r : Ref) (key v : Value) :
    Wrote h .update [.object r, key, v] v (h.modifyObject r (·.insert (h.print key) v))

variable {f : CoreFn} {args : List Value} {loc : Location} {m m' : Machine} {v : Value}
  {h h' : Heap}

/-- Only the first argument is written to. -/
theorem Wrote.growsBut (hw : f.Wrote h args v h') :
    ∃ target rest c, args = target :: rest ∧ target.container? = some c ∧ h.GrowsBut c h' := by
  cases hw with
  | push r v => exact ⟨_, _, _, rfl, rfl, h.growsBut_modifyArray r _⟩
  | pop _ => exact ⟨_, _, _, rfl, rfl, h.growsBut_modifyArray _ _⟩
  | element v _ => exact ⟨_, _, _, rfl, rfl, h.growsBut_modifyArray _ _⟩
  | member r key v => exact ⟨_, _, _, rfl, rfl, h.growsBut_modifyObject r _⟩

/-- **WroteOr.** A computation that writes as the function does, or ends otherwise and leaves the
machine as it was. -/
def WroteOr (f : CoreFn) (args : List Value) (m : Machine) : Outcome Value → Prop
  | .ok v m' => f.Wrote m.heap args v m'.heap
  | .error _ m' | .halt _ m' => m' = m

theorem wroteOr_update (target key v : Value) (loc : Location) (m : Machine) :
    WroteOr .update [target, key, v] m (updateOn target key v loc m) := by
  cases target with
  | array r =>
    dsimp only [updateOn]
    cases hi : key.integer? with
    | none => rfl
    | some i =>
      dsimp only
      split
      · rfl
      · rename_i hneg
        obtain ⟨n, rfl⟩ := Int.eq_ofNat_of_zero_le (Int.not_lt.mp hneg)
        simp only [Int.toNat_natCast]
        by_cases hn : (m.heap.array r).size ≤ n ∧ maxCollectionLength ≤ n
        · rw [bind_of_error (storeElement_of_large v loc hn)]
          rfl
        · rw [bind_of_ok (storeElement_of_small v loc hn)]
          exact .element v hi
  | object r =>
    dsimp only [updateOn]
    by_cases hkey : m.heap.Reaches key (.object r)
    · rw [bind_of_halt (storeMember_of_reaches hkey)]
      rfl
    · rw [bind_of_ok (storeMember_of_not_reaches hkey)]
      exact .member r key v
  | _ => rfl

theorem wroteOr_pop (target : Value) (loc : Location) (m : Machine) :
    WroteOr .pop [target] m (popFrom target loc m) := by
  cases target with
  | array r =>
    have hlast : lookHeap (fun h => (h.array r).back?) m = .ok (m.heap.array r).back? m := rfl
    dsimp only [popFrom]
    rw [bind_of_ok hlast]
    cases hv : (m.heap.array r).back? with
    | none => rfl
    | some v => exact .pop hv
  | _ => rfl

theorem wroteOr_run (hf : f.writes = true) (hargs : (Builtin.core f).arity.accepts args.length)
    (loc : Location) (m : Machine) : f.WroteOr args m (f.run args loc m) := by
  cases f with
  | push =>
    obtain ⟨target, v, rfl⟩ := List.length_eq_two.mp ((Arity.accepts_exact ..).mp hargs)
    cases target with
    | array r => exact .push r v
    | _ => rfl
  | pop =>
    obtain ⟨target, rfl⟩ := List.length_eq_one_iff.mp ((Arity.accepts_exact ..).mp hargs)
    exact wroteOr_pop target loc m
  | update =>
    obtain ⟨target, key, v, rfl⟩ := List.length_eq_three.mp ((Arity.accepts_exact ..).mp hargs)
    exact wroteOr_update target key v loc m
  | _ => cases hf

end CoreFn

/-! ### The main statement -/

namespace Builtin

/-- **Spares.** What a function of the library leaves alone, and what is new in its result.

Containers are as they were, for all functions but those that write; and those change one container
alone, when they succeed. Where the result is a new container, a write to it spares all the old
ones. -/
structure Spares (b : Builtin) (args : List Value) (m : Machine) (o : Outcome Value) : Prop where
  scopes : o.machine.scopes = m.scopes
  scope : o.machine.context.scope = m.context.scope
  error : ∀ {d m'}, o = .error d m' → m.heap.Grows m'.heap
  halt : ∀ {r m'}, o = .halt r m' → m.heap.Grows m'.heap
  /-- Nothing is changed by the functions that do not write. -/
  reads : b.writes = false → m.heap.Grows o.machine.heap
  /-- One container is changed by those that do. -/
  wrote : ∀ {v m'}, b.writes = true → o = .ok v m' →
    ∃ f target rest c, b = .core f ∧ args = target :: rest ∧ target.container? = some c ∧
      f.Wrote m.heap args v m'.heap ∧ m.heap.GrowsBut c m'.heap
  /-- The result is new, for the functions that make containers. -/
  made : ∀ {v m'}, b.makes = true → o = .ok v m' →
    ∃ c, v.container? = some c ∧ m.heap.New m'.heap c ∧
      ∀ h, m'.heap.GrowsBut c h → m.heap.Grows h
  /-- So are the pairs in a list of entries. -/
  entries : ∀ {v m'}, b = .core .entries → o = .ok v m' →
    ∀ w, m'.heap.Contains v w → ∃ c, w.container? = some c ∧ m.heap.New m'.heap c ∧
      ∀ h, m'.heap.GrowsBut c h → m.heap.Grows h
  /-- So is whatever a document holds, at any depth. -/
  parse : ∀ {v m'}, b = .json .parse → o = .ok v m' →
    ∀ w c, m'.heap.Reaches v w → w.container? = some c → m.heap.New m'.heap c ∧
      ∀ h, m'.heap.GrowsBut c h → m.heap.Grows h

variable {b : Builtin} {args : List Value} {m m' : Machine} {v : Value}

theorem confined_call (ev : Evaluator) (hb : b.callsBack = false) (args : List Value)
    (loc : Location) : Confined loc (b.call ev args loc) := by
  cases hw : b.writes with
  | false => exact .of_follows (follows_call ev hb hw args)
  | true =>
    cases b with
    | core f => exact .ite (f.confined_run args loc) (.of_fail ..)
    | _ => cases hw

theorem run_of_call {ev : Evaluator} {loc : Location} (h : b.call ev args loc m = .ok v m') :
    b.run ev args loc m = .ok v m' := by
  unfold call at h
  split at h
  · exact h
  · cases h

theorem grows_call (ev : Evaluator) (hb : b.callsBack = false) (hw : b.writes = false)
    (args : List Value) (loc : Location) (m : Machine) :
    m.heap.Grows (b.call ev args loc m).machine.heap :=
  ((follows_call ev hb hw args : (growth loc).Follows (b.call ev args loc)).holds) m

/-- A function that writes is one of every program. It does so, or leaves the machine as it was. -/
theorem wroteOr_call (ev : Evaluator) (hw : b.writes = true) (args : List Value) (loc : Location)
    (m : Machine) : ∃ f, b = .core f ∧ f.WroteOr args m (b.call ev args loc m) := by
  cases b with
  | core f =>
    refine ⟨f, rfl, ?_⟩
    unfold call
    split
    · rename_i hargs
      exact CoreFn.wroteOr_run hw hargs loc m
    · rfl
  | _ => cases hw

/-- An error or a halt comes before anything is written. -/
theorem grows_of_not_ok (ev : Evaluator) (hb : b.callsBack = false) {loc : Location}
    {o : Outcome Value} (hcall : b.call ev args loc m = o) (ho : ∀ v m', o ≠ .ok v m') :
    m.heap.Grows o.machine.heap := by
  subst hcall
  cases hw : b.writes with
  | false => exact grows_call ev hb hw args loc m
  | true =>
    obtain ⟨f, rfl, hf⟩ := wroteOr_call ev hw args loc m
    revert ho hf
    cases (core f).call ev args loc m with
    | ok v m' => exact fun ho _ => absurd rfl (ho v m')
    | error d m' | halt r m' =>
      rintro - rfl
      exact .refl _

/-- The functions that make containers write to none. -/
theorem writes_of_makes (hb : b.makes = true) : b.writes = false := by
  cases b with
  | core f => cases f <;> first | rfl | cases hb
  | _ => rfl

end Builtin

/-- **The library spares the containers of its callers.** A function that does not call back into
the program binds no names, whatever its arguments are. Containers that were there are as they were
after an error, and after a result as well, but for the first argument of `push`, `pop` and
`update`, which is changed as told. What is made is new: results that are containers, the pairs
inside of a list of entries, and all that a document holds. -/
theorem builtins_spare_containers (ev : Evaluator) {b : Builtin} (hb : b.callsBack = false)
    (args : List Value) (loc : Location) (m : Machine) :
    b.Spares args m (b.call ev args loc m) := by
  have halike := (Builtin.confined_call ev hb args loc).alike m
  have hreads (hw : b.writes = false) : m.heap.Grows (b.call ev args loc m).machine.heap :=
    Builtin.grows_call ev hb hw args loc m
  refine ⟨halike.scopes, congrArg Context.scope halike.context,
    fun ho => Builtin.grows_of_not_ok ev hb ho (by simp),
    fun ho => Builtin.grows_of_not_ok ev hb ho (by simp), hreads,
    fun hw ho => ?_, fun hmakes ho => ?_, fun hb ho w hw => ?_, fun hb ho w c hw hc => ?_⟩
  · obtain ⟨f, rfl, hf⟩ := Builtin.wroteOr_call ev hw args loc m
    rw [ho] at hf
    obtain ⟨target, rest, c, hargs, hc, hgrows⟩ := CoreFn.Wrote.growsBut hf
    exact ⟨f, target, rest, c, rfl, hargs, hc, hf, hgrows⟩
  · obtain ⟨c, hc, hnew⟩ := (Builtin.makes_call ev hmakes args loc).new ho
    rw [ho] at hreads
    exact ⟨c, hc, hnew, fun _ => hnew.spares (hreads (Builtin.writes_of_makes hmakes))⟩
  · subst hb
    rw [ho] at hreads
    obtain ⟨c, hc, hnew⟩ := CoreFn.new_entries (Builtin.run_of_call ho) w hw
    exact ⟨c, hc, hnew, fun _ => hnew.spares (hreads rfl)⟩
  · subst hb
    rw [ho] at hreads
    have hnew := JsonFn.made_parse (Builtin.run_of_call ho) hw c hc
    exact ⟨hnew, fun _ => hnew.spares (hreads rfl)⟩

/-- Of an array in an array, `entries` lists a pair in an array. The new ones are the second and the
third. -/
theorem builtins_spare_containers_entries :
    let m : Machine := { heap := { arrays := #[#[.array 0]] } }
    (Builtin.core .entries).callsBack = false ∧
      (∃ m', (Builtin.core .entries).call (.ofBound 0) [.array 0] default m = .ok (.array 2) m' ∧
        m'.heap.array 0 = #[.array 0] ∧ m'.heap.array 1 = #[.string "0", .array 0] ∧
        m'.heap.array 2 = #[.array 1]) ∧
      (Builtin.core .entries).Spares [.array 0] m
        ((Builtin.core .entries).call (.ofBound 0) [.array 0] default m) := by
  intro m
  exact ⟨rfl, ⟨_, rfl, rfl, rfl, rfl⟩,
    builtins_spare_containers (.ofBound 0) rfl [.array 0] default m⟩

end ScriptLang
