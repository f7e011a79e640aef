import ScriptLang.Eval.Import
import ScriptLang.Library.Argument
import ScriptLang.Proofs.Local
import ScriptLang.Proofs.ScopeWrites

/-!
# Where functions come from

A function value is made where a program has a function, and from then on it is handed around: held
by containers and scopes, passed to functions of the library, given out by modules. None of that
makes a function. So whatever holds of the functions that a program and its modules are written with
holds of every function that a run can come to call.

* `Among T a` says that the functions in a piece of data are among `T`. What kinds of data hold
  functions is told by the instances of `Carries`; data of any other type holds none.
* `Eval.Tame` is the judgement about computations: from a machine whose functions are among `T` they
  lead to such a machine, and so are the functions in their result. Besides, a tame computation
  gives the context back, and it does not fail for a jump without a loop, which is the one fault
  that the text of a program decides.

Of a fault the rules want that it is another one (`RuntimeFault.IsStray`), of a report that its code
is.
-/

namespace ScriptLang

/-! ### Errors -/

/-- The error of a jump without a loop, which only a running program has. -/
def Diagnostic.IsStray (d : Diagnostic) : Prop := d.category = .runtime ∧ d.code = "CTRL002"

@[simp] theorem Report.isStray_toDiagnostic (r : Report) (loc : Location) :
    (r.toDiagnostic loc).IsStray ↔ r.code = "CTRL002" :=
  ⟨fun h => h.2, fun h => ⟨rfl, h⟩⟩

@[simp] theorem Diagnostic.isStray_raisedIn (d : Diagnostic) (frames : List CallFrame) :
    (d.raisedIn frames).IsStray ↔ d.IsStray := Iff.rfl

/-- The fault of a jump without a loop. -/
inductive RuntimeFault.IsStray : RuntimeFault → Prop
  | jump (word : String) (label : Option String) : IsStray (.strayJump word label)

theorem RuntimeFault.code_eq_iff_isStray {f : RuntimeFault} : f.code = "CTRL002" ↔ f.IsStray := by
  constructor
  · intro h
    cases f with
    | strayJump word label => exact .jump word label
    | _ => simp [code] at h
  · rintro ⟨word, label⟩
    rfl

@[simp] theorem RuntimeFault.isStray_toDiagnostic (f : RuntimeFault) (loc : Location) :
    (f.toDiagnostic loc).IsStray ↔ f.IsStray :=
  (Report.isStray_toDiagnostic ..).trans code_eq_iff_isStray

theorem RuntimeFault.not_isStray_ofScope (name : String) (e : ScopeError) :
    ¬ (ofScope name e).IsStray := by
  cases e <;> exact nofun

@[simp] theorem CallStack.isStray_attach (s : CallStack) (d : Diagnostic) :
    (s.attach d).IsStray ↔ d.IsStray := by
  unfold attach
  split <;> rfl

/-- A call too deep is refused with another error. -/
theorem CallStack.not_isStray_push {s : CallStack} {f : CallFrame} {d : Diagnostic}
    (h : s.push f = .error d) : ¬ d.IsStray := by
  unfold push at h
  split at h <;> cases h
  rw [RuntimeFault.isStray_toDiagnostic]
  rintro ⟨⟩

/-- What a text that is no program is refused with: an error that shows no calls. -/
theorem Program.written_of_ofSource {source file : String} {d : Diagnostic}
    (h : Program.ofSource source file = .error d) : d.category ≠ .runtime ∧ d.stack = [] := by
  unfold ofSource at h
  split at h
  · rename_i e he
    cases h
    unfold Lexer.tokenize at he
    cases hl : Lexer.tokens source file with
    | ok ts => rw [hl] at he; cases he
    | error l =>
      rw [hl] at he
      cases he
      unfold Diagnostic.ensureSource
      split <;> exact ⟨by rintro ⟨⟩, rfl⟩
  · unfold ofTokens at h
    split at h
    · cases h
    · rename_i hp
      unfold parseOn at hp
      split at hp <;> cases hp
      cases h
      unfold report
      split <;> exact ⟨by rintro ⟨⟩, rfl⟩
    all_goals
      cases h
      exact ⟨by rintro ⟨⟩, rfl⟩

theorem Program.not_isStray_of_ofSource {source file : String} {d : Diagnostic}
    (h : Program.ofSource source file = .error d) : ¬ d.IsStray := fun hd =>
  (written_of_ofSource h).1 hd.1

/-! ### Data -/

/-- Data that may hold functions of a program. -/
class Carries (α : Type) where
  /-- The functions in it are among `T`. -/
  among : (FunctionDef → Prop) → α → Prop
  mono : ∀ {T T' : FunctionDef → Prop} {a : α}, (∀ fn, T fn → T' fn) → among T a → among T' a

/-- The functions in a piece of data are among `T`. -/
def Among {α : Type} [Carries α] (T : FunctionDef → Prop) (a : α) : Prop := Carries.among T a

section Data

variable {α β : Type} {T : FunctionDef → Prop}

/-- What is among some functions is among more of them. -/
theorem Among.mono [Carries α] {T' : FunctionDef → Prop} {a : α} (h : Among T a)
    (hT : ∀ fn, T fn → T' fn) : Among T' a := Carries.mono hT h

/-- Most data holds no functions. -/
instance (priority := low) Carries.none : Carries α := ⟨fun _ _ => True, fun _ h => h⟩

@[simp] theorem among_plain (a : α) : @Among α .none T a := trivial

instance : Carries Value where
  among T v := match v with
    | .closure _ fn _ => T fn
    | _ => True
  mono {_ _ v} hT h := by
    cases v with
    | closure => exact hT _ h
    | _ => trivial

instance [Carries α] : Carries (List α) where
  among T xs := ∀ a ∈ xs, Among T a
  mono hT h a ha := (h a ha).mono hT

instance [Carries α] : Carries (Array α) where
  among T xs := Among T xs.toList
  mono hT h := Among.mono h hT

instance [Carries α] : Carries (Option α) where
  among T o := ∀ a, o = some a → Among T a
  mono hT h a ha := (h a ha).mono hT

instance [Carries α] [Carries β] : Carries (α × β) where
  among T p := Among T p.1 ∧ Among T p.2
  mono hT h := ⟨h.1.mono hT, h.2.mono hT⟩

instance [Carries α] [Carries β] : Carries (α ⊕ β) where
  among T s := match s with
    | .inl a => Among T a
    | .inr b => Among T b
  mono {_ _ s} hT h := by
    cases s with
    | inl a => exact Among.mono h hT
    | inr b => exact Among.mono h hT

instance [Carries α] : Carries (OrderedMap α) where
  among T m := Among T m.toList
  mono hT h := Among.mono h hT

instance : Carries Binding where
  among T b := Among T b.value
  mono hT h := Among.mono h hT

instance : Carries Argument.Callback where
  among T f := Among T f.value
  mono hT h := Among.mono h hT

instance : Carries ScopeWrite where
  among T w := match w with
    | .bind _ _ b => Among T b
    | .update _ _ v => Among T v
  mono {_ _ w} hT h := by
    cases w with
    | bind id name b => exact Among.mono (a := b) h hT
    | update id name v => exact Among.mono (a := v) h hT

@[simp] theorem among_default : Among T (default : Value) := trivial

@[simp] theorem among_null : Among T Value.null := trivial

@[simp] theorem among_bool (b : Bool) : Among T (Value.bool b) := trivial

@[simp] theorem among_number (x : Float) : Among T (Value.number x) := trivial

@[simp] theorem among_ofNat (n : Nat) : Among T (Value.ofNat n) := trivial

@[simp] theorem among_string (s : String) : Among T (Value.string s) := trivial

@[simp] theorem among_array (r : Ref) : Among T (Value.array r) := trivial

@[simp] theorem among_object (r : Ref) : Among T (Value.object r) := trivial

@[simp] theorem among_builtin (id : Nat) (b : Builtin) : Among T (Value.builtin id b) := trivial

@[simp] theorem among_datetime (t : Instant) : Among T (Value.datetime t) := trivial

@[simp] theorem among_closure {id : Nat} {fn : FunctionDef} {home : ScopeId} :
    Among T (Value.closure id fn home) ↔ T fn := Iff.rfl

@[simp] theorem among_ofLiteral (l : Literal) : Among T (Value.ofLiteral l) := by
  cases l <;> trivial

@[simp] theorem among_nil [Carries α] : Among T ([] : List α) := fun _ h => nomatch h

@[simp] theorem among_cons [Carries α] {a : α} {as : List α} :
    Among T (a :: as) ↔ Among T a ∧ Among T as := List.forall_mem_cons

@[simp] theorem among_append [Carries α] {as bs : List α} :
    Among T (as ++ bs) ↔ Among T as ∧ Among T bs := List.forall_mem_append

/-- Elements of some list. -/
theorem Among.of_subset [Carries α] {as bs : List α} (h : Among T as) (hs : ∀ b ∈ bs, b ∈ as) :
    Among T bs := fun b hb => h b (hs b hb)

@[simp] theorem among_reverse [Carries α] {as : List α} : Among T as.reverse ↔ Among T as :=
  ⟨fun h => h.of_subset (by simp), fun h => h.of_subset (by simp)⟩

theorem among_map [Carries β] {f : α → β} {as : List α} :
    Among T (as.map f) ↔ ∀ a ∈ as, Among T (f a) := List.forall_mem_map

theorem among_toArray [Carries α] {as : List α} : Among T as.toArray ↔ Among T as := Iff.rfl

theorem among_toList [Carries α] {as : Array α} : Among T as.toList ↔ Among T as := Iff.rfl

@[simp] theorem among_emptyArray [Carries α] : Among T (#[] : Array α) := fun _ h => nomatch h

theorem Among.push [Carries α] {as : Array α} {a : α} (h : Among T as) (ha : Among T a) :
    Among T (as.push a) := by
  rw [← among_toList] at h ⊢
  simp [h, ha]

@[simp] theorem among_none [Carries α] : Among T (none : Option α) := fun _ h => nomatch h

@[simp] theorem among_some [Carries α] {a : α} : Among T (some a) ↔ Among T a :=
  ⟨fun h => h a rfl, fun h _ e => Option.some.inj e ▸ h⟩

@[simp] theorem among_pair [Carries α] [Carries β] {a : α} {b : β} :
    Among T (a, b) ↔ Among T a ∧ Among T b := Iff.rfl

@[simp] theorem among_inl [Carries α] [Carries β] {a : α} :
    Among T (.inl a : α ⊕ β) ↔ Among T a := Iff.rfl

@[simp] theorem among_inr [Carries α] [Carries β] {b : β} :
    Among T (.inr b : α ⊕ β) ↔ Among T b := Iff.rfl

theorem Among.ofOption {o : Option Value} (h : Among T o) : Among T (Value.ofOption o) := by
  cases o with
  | none => trivial
  | some v => exact h v rfl

/-- An element of an array, or a value that holds no functions. -/
theorem Among.getD [Carries α] {as : Array α} (h : Among T as) (i : Nat) {a : α}
    (ha : Among T a) : Among T (as.getD i a) := by
  unfold Array.getD
  split
  · exact h _ (by simp)
  · exact ha

theorem Among.getElem? [Carries α] {as : Array α} (h : Among T as) (i : Nat) :
    Among T as[i]? := fun _ e => h _ (Array.mem_toList_iff.mpr (Array.mem_of_getElem? e))

theorem Among.modify [Carries α] {as : Array α} (h : Among T as) (i : Nat) {f : α → α}
    (hf : ∀ a, Among T a → Among T (f a)) : Among T (as.modify i f) := by
  intro a ha
  obtain ⟨j, hj⟩ := List.mem_iff_getElem?.mp ha
  rw [Array.getElem?_toList, Array.getElem?_modify] at hj
  split at hj
  · cases e : as[j]? with
    | none => simp [e] at hj
    | some b =>
      simp only [e, Option.map_some, Option.some.injEq] at hj
      exact hj ▸ hf b (h.getElem? j b e)
  · exact h.getElem? j a hj

/-! ### Ordered maps -/

@[simp] theorem among_emptyMap [Carries α] : Among T (OrderedMap.empty : OrderedMap α) :=
  fun _ h => nomatch h

theorem Among.toList [Carries α] {m : OrderedMap α} (h : Among T m) : Among T m.toList := h

theorem Among.values [Carries α] {m : OrderedMap α} (h : Among T m) : Among T m.values :=
  among_map.mpr fun e he => (h e he).2

theorem Among.get? [Carries α] {m : OrderedMap α} (h : Among T m) (key : String) :
    Among T (m.get? key) := by
  unfold OrderedMap.get?
  split
  · rename_i i _
    intro a ha
    have hentries : Among T m.entries := h
    obtain ⟨e, he, rfl⟩ := Option.map_eq_some_iff.mp ha
    exact (hentries.getElem? i e he).2
  · exact among_none

theorem Among.insert [Carries α] {m : OrderedMap α} (h : Among T m) (key : String) {a : α}
    (ha : Among T a) : Among T (m.insert key a) := by
  have hentries : Among T m.entries := h
  change Among T (m.toRaw.getThenInsert? key a).2.entries
  unfold OrderedMap.Raw.getThenInsert?
  split
  · exact hentries.modify _ fun _ _ => ⟨trivial, ha⟩
  · exact hentries.push ⟨trivial, ha⟩

theorem Among.modifyEntry [Carries α] {m : OrderedMap α} (h : Among T m) (key : String) {f : α → α}
    (hf : ∀ a, Among T a → Among T (f a)) : Among T (m.modify key f) := by
  have hentries : Among T m.entries := h
  change Among T (m.toRaw.modify key f).entries
  unfold OrderedMap.Raw.modify
  split
  · exact hentries.modify _ fun e he => ⟨trivial, hf _ he.2⟩
  · exact h

theorem Among.insertAll [Carries α] {m : OrderedMap α} (h : Among T m)
    {entries : List (String × α)} (he : Among T entries) : Among T (m.insertAll entries) := by
  unfold OrderedMap.insertAll
  induction entries generalizing m with
  | nil => exact h
  | cons e rest ih =>
    obtain ⟨he, hr⟩ := among_cons.mp he
    exact ih (h.insert e.1 he.2) hr

theorem Among.ofList [Carries α] {entries : List (String × α)} (h : Among T entries) :
    Among T (OrderedMap.ofList entries) := among_emptyMap.insertAll h

/-! ### Heaps and scopes -/

instance : Carries Heap where
  among T h := (∀ r, Among T (h.array r)) ∧ ∀ r, Among T (h.object r)
  mono hT h := ⟨fun r => (h.1 r).mono hT, fun r => (h.2 r).mono hT⟩

instance : Carries Scopes where
  among T t := ∀ id, Among T (t.get id).vars
  mono hT h id := (h id).mono hT

theorem Among.array {h : Heap} (hh : Among T h) (r : Ref) : Among T (h.array r) := hh.1 r

theorem Among.object {h : Heap} (hh : Among T h) (r : Ref) : Among T (h.object r) := hh.2 r

theorem Among.allocArray {h : Heap} (hh : Among T h) {items : Array Value}
    (hi : Among T items) : Among T (h.allocArray items) := by
  refine ⟨trivial, fun r => ?_, hh.2⟩
  have hr := hh.array r
  simp only [Heap.array, Heap.allocArray, Array.getD_eq_getD_getElem?, Array.getElem?_push] at hr ⊢
  split
  · exact hi
  · exact hr

theorem Among.allocObject {h : Heap} (hh : Among T h) {entries : OrderedMap Value}
    (he : Among T entries) : Among T (h.allocObject entries) := by
  refine ⟨trivial, hh.1, fun r => ?_⟩
  have hr := hh.object r
  simp only [Heap.object, Heap.allocObject, Array.getD_eq_getD_getElem?, Array.getElem?_push]
    at hr ⊢
  split
  · exact he
  · exact hr

theorem Among.modifyArray {h : Heap} (hh : Among T h) (r : Ref) {f : Array Value → Array Value}
    (hf : ∀ xs, Among T xs → Among T (f xs)) : Among T (h.modifyArray r f) := by
  refine ⟨fun s => ?_, hh.2⟩
  have hs := hh.array s
  simp only [Heap.array, Heap.modifyArray, Array.getD_eq_getD_getElem?, Array.getElem?_modify]
    at hs ⊢
  split
  · cases e : h.arrays[s]? with
    | none => simp
    | some xs => exact hf xs (by simpa [e] using hs)
  · exact hs

theorem Among.modifyObject {h : Heap} (hh : Among T h) (r : Ref)
    {f : OrderedMap Value → OrderedMap Value} (hf : ∀ es, Among T es → Among T (f es)) :
    Among T (h.modifyObject r f) := by
  refine ⟨hh.1, fun s => ?_⟩
  have hs := hh.object s
  simp only [Heap.object, Heap.modifyObject, Array.getD_eq_getD_getElem?, Array.getElem?_modify]
    at hs ⊢
  split
  · cases e : h.objects[s]? with
    | none => simp
    | some es => exact hf es (by simpa [e] using hs)
  · exact hs

theorem Among.child {t : Scopes} (ht : Among T t) (parent : ScopeId) (role : ScopeRole) :
    Among T (t.child parent role) := by
  refine ⟨trivial, fun id => ?_⟩
  have hid := ht id
  simp only [Scopes.get, Scopes.child, Array.getD_eq_getD_getElem?, Array.getElem?_push]
    at hid ⊢
  split
  · exact among_emptyMap
  · exact hid

/-- A change of one scope's names. -/
theorem Among.modifyScope {t : Scopes} (ht : Among T t) (id : ScopeId)
    {f : OrderedMap Binding → OrderedMap Binding} (hf : ∀ es, Among T es → Among T (f es)) :
    Among T (Scopes.mk (t.table.modify id fun s => { s with vars := f s.vars })) := by
  intro s
  have hs := ht s
  simp only [Scopes.get, Array.getD_eq_getD_getElem?, Array.getElem?_modify] at hs ⊢
  split
  · cases e : t.table[s]? with
    | none => exact among_emptyMap
    | some sc =>
      rw [e] at hs
      exact hf sc.vars hs
  · exact hs

theorem Among.perform {t : Scopes} (ht : Among T t) {w : ScopeWrite} (hw : Among T w) :
    Among T (t.perform w) := by
  cases w with
  | bind id name b =>
    exact ht.modifyScope (f := (·.insert name b)) id fun es he => he.insert name hw
  | update id name v =>
    let f (b : Binding) : Binding := { b with value := v }
    exact ht.modifyScope (f := (·.modify name f)) id fun es he => he.modifyEntry name fun _ _ => hw

theorem Among.find? {t : Scopes} (ht : Among T t) {name : String} {id s : ScopeId} {b : Binding}
    (h : t.find? name id = some (s, b)) : Among T b := by
  -- Along the search, as far as it goes outward.
  induction id using Scopes.find?.induct t name with
  | case1 id scope b' hb =>
    rw [Scopes.find?] at h
    simp only [scope] at hb
    simp only [hb] at h
    cases h
    exact (ht _).get? name b hb
  | case2 id scope hb p hp hlt ih =>
    rw [Scopes.find?] at h
    simp only [scope] at hb hp
    simp only [hb, hp, hlt] at h
    exact ih (by simpa using h)
  | case3 id scope hb p hp hlt =>
    rw [Scopes.find?] at h
    simp only [scope] at hb hp
    simp [hb, hp, hlt] at h
  | case4 id scope hb hp =>
    rw [Scopes.find?] at h
    simp only [scope] at hb hp
    simp [hb, hp] at h

theorem Among.lookup? {t : Scopes} (ht : Among T t) (name : String) (id : ScopeId) :
    Among T (t.lookup? name id) := by
  intro v hv
  obtain ⟨⟨s, b⟩, hb, rfl⟩ := Option.map_eq_some_iff.mp hv
  exact ht.find? hb

theorem Among.bindings {t : Scopes} (ht : Among T t) (id : ScopeId) :
    Among T (t.bindings id) :=
  among_map.mpr fun e he => ⟨trivial, (ht id e he).2⟩

/-- A planned change of the scopes puts the given value somewhere. -/
theorem Among.planDefine {t : Scopes} {id : ScopeId} {name : String} {v : Value}
    {kind : DeclKind} (hv : Among T v) {w : ScopeWrite}
    (h : t.planDefine id name v kind = .ok w) : Among T w := by
  unfold Scopes.planDefine at h
  repeat' split at h
  all_goals cases h
  all_goals exact hv

theorem Among.planSet {t : Scopes} {id : ScopeId} {name : String} {v : Value} (hv : Among T v)
    {w : ScopeWrite} (h : t.planSet id name v = .ok w) : Among T w := by
  unfold Scopes.planSet at h
  split at h
  · unfold Scopes.planOverwrite at h
    split at h <;> cases h
    exact hv
  · exact hv.planDefine h

/-! ### Machines -/

instance : Carries Machine where
  among T m := Among T m.heap ∧ Among T m.scopes ∧ Among T m.modules
  mono hT h := ⟨h.1.mono hT, h.2.1.mono hT, h.2.2.mono hT⟩

theorem Among.heap {m : Machine} (h : Among T m) : Among T m.heap := h.1

theorem Among.scopes {m : Machine} (h : Among T m) : Among T m.scopes := h.2.1

theorem Among.modules {m : Machine} (h : Among T m) : Among T m.modules := h.2.2

end Data

/-! ### Computations -/

/-- The end of a tame computation that started in the context `c`. -/
def Outcome.Tame {α : Type} [Carries α] (T : FunctionDef → Prop) (c : Context) : Outcome α → Prop
  | .ok a m => m.context = c ∧ Among T a ∧ Among T m
  | .error d m => m.context = c ∧ ¬ d.IsStray ∧ Among T m
  | .halt _ m => Among T m

namespace Eval

variable {α β : Type} [Carries α] [Carries β] {T : FunctionDef → Prop}

/-- **Tame.** Where the functions in the machine are among `T`, they are so afterwards, and so are
those in the result; an error is not that of a stray jump. The context is as before. -/
structure Tame (T : FunctionDef → Prop) (x : Eval α) : Prop where
  ends : ∀ m, Among T m → (x m).Tame T m.context

namespace Tame

/-! ### Rules -/

theorem of_pure {a : α} (ha : Among T a) : Tame T (pure a) := ⟨fun _ hm => ⟨rfl, ha, hm⟩⟩

theorem of_raise {d : Diagnostic} (hd : ¬ d.IsStray) : Tame T (raise d : Eval α) :=
  ⟨fun _ hm => ⟨rfl, hd, hm⟩⟩

theorem of_fail {f : RuntimeFault} {loc : Location} (hf : ¬ f.IsStray) :
    Tame T (fail f loc : Eval α) :=
  of_raise (by simpa using hf)

theorem of_refuse {r : Report} {loc : Location} (hr : r.code ≠ "CTRL002") :
    Tame T (refuse r loc : Eval α) := of_raise (by simpa using hr)

theorem of_halt (r : Halt) : Tame T (halt r : Eval α) := ⟨fun _ hm => hm⟩

theorem of_look {f : Machine → α} (hf : ∀ m, Among T m → Among T (f m)) : Tame T (look f) :=
  ⟨fun m hm => ⟨rfl, hf m hm, hm⟩⟩

theorem of_lookHeap {f : Heap → α} (hf : ∀ h, Among T h → Among T (f h)) :
    Tame T (lookHeap f) := of_look fun m hm => hf m.heap hm.heap

theorem of_overHeap {f : Heap → α × Heap} (hf : ∀ h, Among T h → Among T (f h)) :
    Tame T (overHeap f) := by
  refine ⟨fun m hm => ?_⟩
  obtain ⟨ha, hh⟩ := hf m.heap hm.heap
  exact ⟨rfl, ha, hh, hm.scopes, hm.modules⟩

theorem of_overScopes {f : Scopes → α × Scopes} (hf : ∀ t, Among T t → Among T (f t)) :
    Tame T (overScopes f) := by
  refine ⟨fun m hm => ?_⟩
  obtain ⟨ha, ht⟩ := hf m.scopes hm.scopes
  exact ⟨rfl, ha, hm.heap, ht, hm.modules⟩

theorem of_overPrinter (f : Printer → Printer) : Tame T (overPrinter f) :=
  ⟨fun _ hm => ⟨rfl, trivial, hm⟩⟩

theorem of_note (e : Event) : Tame T (note e) := ⟨fun _ hm => ⟨rfl, trivial, hm⟩⟩

theorem of_ask {f : Host → α} (hf : ∀ h, Among T (f h)) : Tame T (ask f) :=
  ⟨fun m hm => ⟨rfl, hf m.host, hm⟩⟩

theorem of_act (f : Host → Except HostFailure Host) : Tame T (act f) := by
  refine ⟨fun m hm => ?_⟩
  unfold act
  cases f m.host with
  | ok h => exact ⟨rfl, trivial, hm⟩
  | error d => exact ⟨rfl, trivial, hm⟩

theorem andThen {x : Eval α} {f : α → Eval β} (hx : Tame T x)
    (hf : ∀ a, Among T a → Tame T (f a)) : Tame T (x >>= f) := by
  refine ⟨fun m hm => ?_⟩
  have h := hx.ends m hm
  change (Eval.andThen x f m).Tame T m.context
  unfold Eval.andThen
  cases e : x m with
  | ok a m' =>
    rw [e] at h
    obtain ⟨hc, ha, hm'⟩ := h
    exact hc ▸ (hf a ha).ends m' hm'
  | error d m' => rwa [e] at h
  | halt r m' => rwa [e] at h

theorem map {f : α → β} {x : Eval α} (hx : Tame T x) (hf : ∀ a, Among T a → Among T (f a)) :
    Tame T (f <$> x) :=
  hx.andThen fun a ha => of_pure (hf a ha)

theorem ite {c : Prop} [Decidable c] {x y : Eval α} (hx : Tame T x) (hy : Tame T y) :
    Tame T (if c then x else y) := by
  split
  · exact hx
  · exact hy

end Tame

end Eval

end ScriptLang
