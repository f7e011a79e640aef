import ScriptLang.Library.Dispatch
import ScriptLang.Proofs.ConfinedLibrary
import ScriptLang.Proofs.Provenance
import ScriptLang.Proofs.SortedElements

/-!
# The library makes no functions

Every function of the library that calls nothing back is tame (`Eval.Tame`). What it answers, and
what it stores, comes from three places only: its arguments, the containers of the heap, and data
that holds no functions, such as numbers, texts and the answers of the host. The functions among the
first two are among `T` already.

The functions that call back are tame only as far as the evaluator is, so they are left out here:
`ArrayFn.tame_run`, `AssertFn.tame_run` and `ObjectFn.tame_run` say which.

Main statements: `CoreFn.tame_run`, `ArrayFn.tame_run`, `AssertFn.tame_run`, `ObjectFn.tame_run`,
`DatetimeFn.tame_run`, `EnvFn.tame_run`, `FilesFn.tame_run`, `HttpFn.tame_run`, `JsonFn.tame_run`,
`MathFn.tame_run`, `PathFn.tame_run`, `RegexFn.tame_run`, `StringFn.tame_run` and
`Eval.tame_buildStandard`.
-/

namespace ScriptLang

open Eval

variable {T : FunctionDef → Prop}

attribute [local simp] Report.wrongType Report.badArgument Argument.typeReport

namespace Eval

variable {α β : Type} [Carries α] [Carries β]

/-! ### Containers -/

theorem tame_newArray {items : Array Value} (h : Among T items) : Tame T (newArray items) :=
  .of_overHeap fun _ hh => hh.allocArray h

theorem tame_newList {items : List Value} (h : Among T items) : Tame T (newList items) :=
  tame_newArray h

theorem tame_newObject {entries : OrderedMap Value} (h : Among T entries) :
    Tame T (newObject entries) :=
  .of_overHeap fun _ hh => hh.allocObject h

@[simp] theorem tame_newIdentity : Tame T newIdentity :=
  .of_overHeap fun _ hh => ⟨trivial, hh.1, hh.2⟩

@[simp] theorem tame_array (r : Ref) : Tame T (array r) := .of_lookHeap fun _ hh => hh.array r

@[simp] theorem tame_element? (r : Ref) (i : Nat) : Tame T (element? r i) :=
  .of_lookHeap fun _ hh => (hh.array r).getElem? i

@[simp] theorem tame_object (r : Ref) : Tame T (object r) := .of_lookHeap fun _ hh => hh.object r

theorem tame_modifyArray (r : Ref) {f : Array Value → Array Value}
    (hf : ∀ xs, Among T xs → Among T (f xs)) : Tame T (modifyArray r f) :=
  .of_overHeap fun _ hh => ⟨trivial, hh.modifyArray r hf⟩

theorem tame_modifyObject (r : Ref) {f : OrderedMap Value → OrderedMap Value}
    (hf : ∀ es, Among T es → Among T (f es)) : Tame T (modifyObject r f) :=
  .of_overHeap fun _ hh => ⟨trivial, hh.modifyObject r hf⟩

@[simp] theorem tame_print (v : Value) : Tame T (print v) := by
  unfold print
  split
  · exact .of_pure trivial
  · exact .of_lookHeap fun _ _ => trivial

@[simp] theorem tame_scope : Tame T scope := .of_look fun _ _ => trivial

@[simp] theorem tame_declared (name : String) : Tame T (declared name) :=
  .of_look fun _ _ => trivial

/-! ### Scopes -/

theorem tame_alterScopes {plan : Scopes → Except ScopeError ScopeWrite}
    {fault : ScopeError → RuntimeFault} {loc : Location}
    (hp : ∀ t w, plan t = .ok w → Among T w) (hf : ∀ e, ¬ (fault e).IsStray) :
    Tame T (alterScopes plan fault loc) := by
  refine ⟨fun m hm => ?_⟩
  unfold alterScopes
  cases e : plan m.scopes with
  | ok w => exact ⟨rfl, trivial, hm.heap, hm.scopes.perform (hp _ _ e), hm.modules⟩
  | error d => exact ⟨rfl, by simpa using hf d, hm⟩

theorem tame_defineIn {id : ScopeId} {name : String} {v : Value} {kind : DeclKind}
    {loc : Location} (hv : Among T v) : Tame T (defineIn id name v kind loc) :=
  tame_alterScopes (fun _ _ h => hv.planDefine h) (RuntimeFault.not_isStray_ofScope name)

theorem tame_define {name : String} {v : Value} {kind : DeclKind} {loc : Location}
    (hv : Among T v) : Tame T (define name v kind loc) :=
  .andThen tame_scope fun _ _ => tame_defineIn hv

theorem tame_setVariable {name : String} {v : Value} {loc : Location} (hv : Among T v) :
    Tame T (setVariable name v loc) :=
  .andThen tame_scope fun _ _ =>
    tame_alterScopes (fun _ _ h => hv.planSet h) (RuntimeFault.not_isStray_ofScope name)

@[simp] theorem tame_newChildOf (parent : ScopeId) (role : ScopeRole) :
    Tame T (newChildOf parent role) :=
  .of_overScopes fun _ ht => ht.child parent role

@[simp] theorem tame_newChild (role : ScopeRole) : Tame T (newChild role) :=
  .andThen tame_scope fun _ _ => tame_newChildOf ..

/-! ### Operators and members -/

theorem tame_withNumbers {op : BinaryOp} {l r : Value} {loc : Location}
    {f : Float → Float → Eval Value} (hf : ∀ a b, Tame T (f a b)) :
    Tame T (withNumbers op l r loc f) := by
  unfold withNumbers
  split
  · exact hf _ _
  · exact .of_fail nofun

theorem tame_combine (op : BinaryOp) {l r : Value} (hl : Among T l) (hr : Among T r)
    (loc : Location) : Tame T (combine op l r loc) := by
  cases op with
  | coalesce =>
    refine .of_pure ?_
    split
    · exact hr
    · exact hl
  | add =>
    refine .ite (.andThen (tame_print l) fun a _ => ?_)
      (tame_withNumbers fun _ _ => .of_pure trivial)
    exact .andThen (tame_print r) fun b _ => .of_pure trivial
  | sub | mul | gt | lt | gtEq | ltEq => exact tame_withNumbers fun _ _ => .of_pure trivial
  | div | mod => exact tame_withNumbers fun _ _ => .ite (.of_fail nofun) (.of_pure trivial)
  | _ => exact .of_pure trivial

theorem tame_applyUnary (op : UnaryOp) (v : Value) (loc : Location) :
    Tame T (applyUnary op v loc) := by
  unfold applyUnary
  split
  · exact .of_pure trivial
  · exact .of_fail nofun
  · exact .of_pure trivial

theorem tame_memberOf (v : Value) (name : String) (safe : Bool) (loc : Location) :
    Tame T (memberOf v name safe loc) := by
  unfold memberOf
  split
  · exact .ite (.of_pure trivial) (.of_fail nofun)
  · exact .of_lookHeap fun h hh => ((hh.object _).get? name).ofOption
  · exact .ite (.of_lookHeap fun _ _ => trivial) (.of_pure trivial)
  · refine .of_pure ?_
    split <;> trivial
  · exact .of_fail nofun
  · exact .of_fail nofun
  all_goals exact .of_pure trivial

theorem among_getAt {items : Array Value} (h : Among T items) (i : Int) :
    Among T (getAt items i) := by
  unfold getAt
  split
  · trivial
  · exact h.getD _ among_null

theorem among_charAt (s : String) (i : Int) : Among T (charAt s i) := by
  unfold charAt
  repeat' split
  all_goals trivial

theorem tame_elementOf (v key : Value) (loc : Location) : Tame T (elementOf v key loc) := by
  unfold elementOf
  split
  · split
    · exact .of_lookHeap fun h hh => among_getAt (hh.array _) _
    · exact .of_fail nofun
  · exact .of_lookHeap fun h hh => ((hh.object _).get? _).ofOption
  · split
    · exact .of_pure (among_charAt ..)
    · exact .of_fail nofun
  · exact .of_fail nofun

theorem among_putAt {items : Array Value} (h : Among T items) (i : Nat) {v : Value}
    (hv : Among T v) : Among T (putAt items i v) := by
  unfold putAt
  split
  · intro w hw
    simp only [Array.set!_eq_setIfInBounds, Array.toList_setIfInBounds] at hw
    rcases List.mem_or_eq_of_mem_set hw with h' | rfl
    · exact h w h'
    · exact hv
  · refine Among.push ?_ hv
    rw [← among_toList]
    simp only [Array.toList_append, among_append, Array.toList_replicate]
    exact ⟨h, fun w hw => (List.eq_of_mem_replicate hw) ▸ among_null⟩

theorem tame_storeElement (r : Ref) (i : Nat) {v : Value} (hv : Among T v) (loc : Location) :
    Tame T (storeElement r i v loc) := by
  refine .andThen (.of_lookHeap fun _ _ => trivial) fun size _ => .ite (.of_fail nofun) ?_
  exact tame_modifyArray r fun xs h => among_putAt h i hv

theorem tame_storeMember (r : Ref) (key : Value) {v : Value} (hv : Among T v) :
    Tame T (storeMember r key v) := by
  refine .andThen (.of_lookHeap fun _ _ => trivial) fun found _ => .ite (.of_halt _) ?_
  refine .andThen (tame_print key) fun name _ => ?_
  exact tame_modifyObject r fun es h => h.insert name hv

theorem tame_spread (v : Value) {fault : RuntimeFault} (hf : ¬ fault.IsStray)
    (loc : Location) : Tame T (spread v fault loc) := by
  unfold spread
  split
  · exact .of_lookHeap fun h hh => hh.array _
  · exact .of_fail hf

theorem tame_newClosure {fn : FunctionDef} (hf : T fn) : Tame T (newClosure fn) :=
  .andThen tame_newIdentity fun _ _ => .andThen tame_scope fun _ _ => .of_pure hf

theorem tame_requireCallable (f : Value) (name : String) (loc : Location) :
    Tame T (requireCallable f name loc) :=
  .ite (.of_pure trivial) (.of_fail nofun)

theorem tame_nameValue (name : String) (loc : Location) : Tame T (nameValue name loc) := by
  refine .andThen (.of_look fun m hm => hm.scopes.lookup? name _) fun found hf => ?_
  split
  · exact .of_pure (among_some.mp hf)
  · exact ⟨fun _ hm => ⟨rfl, by simpa using nofun, hm⟩⟩

theorem tame_moduleMember (module name : String) (loc : Location) :
    Tame T (moduleMember module name loc) := by
  refine .andThen (tame_nameValue module loc) fun v _ => ?_
  split
  · refine .andThen (tame_object _) fun entries he => ?_
    dsimp only
    split
    · rename_i v hv
      exact .of_pure (he.get? name v hv)
    · exact .of_fail nofun
  · exact .of_fail nofun

end Eval

/-! ### Arguments -/

namespace Argument

variable {args : List Value}

theorem among_nth (h : Among T args) (position : Nat) : Among T (nth args position) := by
  unfold nth
  rw [List.getD_eq_getElem?_getD]
  cases e : args[position - 1]? with
  | none => trivial
  | some v => exact h v (List.mem_of_getElem? e)

theorem among_given? (h : Among T args) (position : Nat) : Among T (given? args position) :=
  fun v e => h v (List.mem_of_getElem? e)

theorem tame_number (function : String) (v : Value) (position : Nat) (loc : Location) :
    Tame T (number function v position loc) := by
  unfold number
  split
  · exact .of_pure trivial
  · exact .of_refuse (by simp)

theorem tame_text (function : String) (v : Value) (position : Nat) (loc : Location) :
    Tame T (text function v position loc) := by
  unfold text
  split
  · exact .of_pure trivial
  · exact .of_refuse (by simp)

theorem tame_array (function : String) (v : Value) (position : Nat) (loc : Location) :
    Tame T (array function v position loc) := by
  unfold array
  split
  · exact .of_pure trivial
  · exact .of_refuse (by simp)

theorem tame_callback (function : String) {v : Value} (hv : Among T v) (position : Nat)
    (loc : Location) : Tame T (callback function v position loc) := by
  unfold callback
  split
  · exact .of_pure hv
  · exact .of_refuse (by simp)

theorem tame_optionalNumber (function : String) (args : List Value) (position : Nat)
    (loc : Location) : Tame T (optionalNumber function args position loc) := by
  unfold optionalNumber
  split
  · exact .of_pure among_none
  · exact .map (tame_number ..) fun _ _ _ _ => trivial

end Argument

open Argument

/-! ### Functions of every program -/

namespace CoreFn

attribute [local simp] CoreReport.lengthOf CoreReport.indexType CoreReport.getFrom
  CoreReport.updateOn CoreReport.negativeIndex CoreReport.needsArray CoreReport.popNeedsArray
  CoreReport.popEmpty CoreReport.rangeNumbers CoreReport.rangeIntegers CoreReport.rangeStep
  CoreReport.joinSeparator CoreReport.listingOfNull CoreReport.listingOf CoreReport.variableName
  CoreReport.exitCodeType CoreReport.exitRefused CoreReport.memberNameType
  CoreReport.memberOfScalar

theorem tame_sliceEnd (args : List Value) (position length fallback : Nat) (loc : Location) :
    Tame T (sliceEnd args position length fallback loc) := by
  unfold sliceEnd
  split
  · exact .andThen (tame_number ..) fun _ _ => .of_pure trivial
  · exact .of_pure trivial

theorem tame_sliceOf (r : Ref) (args : List Value) (loc : Location) :
    Tame T (sliceOf r args loc) := by
  refine .andThen (Eval.tame_array r) fun items hi => .andThen (tame_sliceEnd ..) fun first _ => ?_
  refine .andThen (tame_sliceEnd ..) fun last _ => tame_newArray fun v hv => ?_
  rw [Array.toList_extract, List.extract_eq_take_drop] at hv
  exact hi v (List.mem_of_mem_drop (List.mem_of_mem_take hv))

theorem tame_numbersOf (loc : Location) (args : List Value) : Tame T (numbersOf loc args) := by
  induction args with
  | nil => exact .of_pure among_nil
  | cons v rest ih =>
    cases v with
    | number x => exact .andThen ih fun xs hx => .of_pure (among_cons.mpr ⟨trivial, hx⟩)
    | _ => exact .of_refuse (by simp)

theorem tame_rangeOf (args : List Value) (loc : Location) : Tame T (rangeOf args loc) := by
  refine .andThen (tame_numbersOf loc args) fun xs _ => .ite (.of_refuse (by simp)) ?_
  dsimp only
  refine .ite (.of_refuse (by simp)) (.ite (.of_fail nofun) (tame_newArray ?_))
  intro v hv
  obtain ⟨k, -, rfl⟩ := Array.mem_map.mp (Array.mem_toList_iff.mp hv)
  trivial

theorem tame_pairs {entries : List (String × Value)} (h : Among T entries) :
    Tame T (pairs entries) := by
  induction entries with
  | nil => exact .of_pure among_nil
  | cons e rest ih =>
    obtain ⟨he, hr⟩ := among_cons.mp h
    refine .andThen (tame_newList ?_) fun pair hp => .andThen (ih hr) fun ps hps => ?_
    · exact among_cons.mpr ⟨trivial, among_cons.mpr ⟨he.2, among_nil⟩⟩
    · exact .of_pure (among_cons.mpr ⟨hp, hps⟩)

theorem tame_listing (function : String) (v : Value) (loc : Location)
    {ofArray : Array Value → Eval Value} {ofObject : OrderedMap Value → Eval Value}
    (ha : ∀ items, Among T items → Tame T (ofArray items))
    (ho : ∀ entries, Among T entries → Tame T (ofObject entries)) :
    Tame T (listing function v loc ofArray ofObject) := by
  unfold listing
  split
  · exact .andThen (Eval.tame_array _) ha
  · exact .andThen (Eval.tame_object _) ho
  · exact .of_refuse (by simp)
  · exact .of_refuse (by simp)

theorem tame_leave (code : Int) (loc : Location) : Tame T (leave code loc) := by
  refine ⟨fun m hm => ?_⟩
  unfold leave
  split
  · exact ⟨rfl, by simp, hm⟩
  · exact ⟨rfl, trivial, hm⟩
  · exact hm

theorem tame_getFrom (v key : Value) (loc : Location) : Tame T (getFrom v key loc) := by
  unfold getFrom
  split
  · split
    · exact .of_lookHeap fun h hh => among_getAt (hh.array _) _
    · exact .of_refuse (by simp)
  · exact .of_lookHeap fun h hh => ((hh.object _).get? _).ofOption
  · exact .of_refuse (by simp)

theorem tame_updateOn (target key : Value) {v : Value} (hv : Among T v) (loc : Location) :
    Tame T (updateOn target key v loc) := by
  unfold updateOn
  split
  · split
    · exact .of_refuse (by simp)
    · exact .ite (.of_refuse (by simp))
        (.andThen (tame_storeElement _ _ hv loc) fun _ _ => .of_pure hv)
  · exact .andThen (tame_storeMember _ _ hv) fun _ _ => .of_pure hv
  · exact .of_refuse (by simp)

theorem tame_memberSafely (target name : Value) (loc : Location) :
    Tame T (memberSafely target name loc) := by
  refine .ite (.of_pure trivial) ?_
  split
  · split
    · exact .of_refuse (by simp)
    · exact .of_refuse (by simp)
    · exact tame_memberOf ..
  · exact .of_refuse (by simp)

theorem tame_joined (items separator : Value) (loc : Location) :
    Tame T (joined items separator loc) := by
  unfold joined
  split
  · exact .of_lookHeap fun _ _ => trivial
  · exact .of_refuse (by simp)
  · exact .of_refuse (by simp)

theorem tame_hasMember (target key : Value) : Tame T (hasMember target key) := by
  refine .of_lookHeap fun h _ => ?_
  dsimp only
  split <;> trivial

theorem tame_popFrom (target : Value) (loc : Location) : Tame T (popFrom target loc) := by
  unfold popFrom
  split
  · refine .andThen (.of_lookHeap (f := fun h => (h.array _).back?) ?_) fun v hv => ?_
    · exact fun h hh => (hh.array _).getElem? _
    · split
      · refine .andThen (tame_modifyArray _ fun xs hx => ?_) fun _ _ => .of_pure (among_some.mp hv)
        exact fun v hv => hx v (List.dropLast_subset _ (Array.toList_pop ▸ hv))
      · exact .of_refuse (by simp)
  · exact .of_refuse (by simp)

theorem tame_run (f : CoreFn) {args : List Value} (h : Among T args) (loc : Location) :
    Tame T (f.run args loc) := by
  -- What is stored or given back is an argument, comes out of a container, or holds no functions.
  have hn := among_nth h
  cases f with
  | len =>
    dsimp only [run]
    split
    · exact .of_lookHeap fun _ _ => trivial
    · exact .of_pure trivial
    · exact .of_refuse (by simp)
  | get => exact tame_getFrom ..
  | update =>
    -- The third argument is stored, whether under a key or at a position.
    exact tame_updateOn _ _ (hn 3) loc
  | typeOf => exact .of_pure trivial
  | push =>
    dsimp only [run]
    split
    · exact .andThen (tame_modifyArray _ fun xs hx => hx.push (hn 2)) fun _ _ => .of_pure (hn 1)
    · exact .of_refuse (by simp)
  | pop => exact tame_popFrom ..
  | slice =>
    dsimp only [run]
    split
    · exact tame_sliceOf ..
    · exact .of_refuse (by simp)
  | range => exact tame_rangeOf ..
  | join => exact tame_joined ..
  | hasProperty => exact tame_hasMember ..
  | keys =>
    refine tame_listing _ _ _ (fun _ _ => tame_newArray ?_) fun _ _ => tame_newList ?_
    · -- The positions of an array are new numbers.
      intro v hv
      obtain ⟨k, -, rfl⟩ := Array.mem_map.mp (Array.mem_toList_iff.mp hv)
      trivial
    · -- The keys of an object are texts.
      exact among_map.mpr fun _ _ => trivial
  | values =>
    exact tame_listing _ _ _ (fun _ hi => tame_newArray hi) fun _ he => tame_newList he.values
  | entries =>
    -- Of a pair the second part was in the container; the pairs themselves are new arrays.
    refine tame_listing _ _ _ (fun items hi => ?_) fun _ he => ?_
    · refine .andThen (tame_pairs (among_map.mpr fun p hp => ?_)) fun ps hps => tame_newList hps
      exact ⟨trivial, hi p.1 (List.fst_mem_of_mem_zipIdx hp)⟩
    · exact .andThen (tame_pairs he.toList) fun ps hps => tame_newList hps
  | getArguments =>
    exact .andThen (.of_ask fun _ _ _ => trivial) fun _ _ =>
      tame_newList (among_map.mpr fun _ _ => trivial)
  | getEnv =>
    dsimp only [run]
    split
    · refine .of_ask fun host => Among.ofOption fun v hv => ?_
      obtain ⟨s, -, rfl⟩ := Option.map_eq_some_iff.mp hv
      trivial
    · exact .of_refuse (by simp)
  | exitCode =>
    dsimp only [run]
    split
    · exact tame_leave ..
    · exact .of_refuse (by simp)
  | coalesce | ifElse =>
    refine .of_pure ?_
    split
    · exact hn 2
    · first
      | exact hn 1
      | exact hn 3
  | getPropertySafe => exact tame_memberSafely ..

end CoreFn

/-! ### Modules with callbacks -/

namespace ArrayFn

theorem tame_items (function : String) (args : List Value) (position : Nat) (loc : Location) :
    Tame T (items function args position loc) :=
  .andThen (Argument.tame_array ..) fun r _ => Eval.tame_array r

theorem tame_concatFrom (loc : Location) (position : Nat) (args : List Value)
    {done : Array Value} (hd : Among T done) : Tame T (concatFrom loc position args done) := by
  induction args generalizing position done with
  | nil => exact .of_pure hd
  | cons v rest ih =>
    refine .andThen (Argument.tame_array ..) fun r _ => .andThen (Eval.tame_array r) fun xs hx => ?_
    refine ih _ ?_
    rw [← among_toList, Array.toList_append, among_append]
    exact ⟨hd, hx⟩

theorem tame_ofTwo (function : String) (args : List Value) (loc : Location)
    {f : List Value → List Value → List Value}
    (hf : ∀ a b, Among T a → Among T b → Among T (f a b)) : Tame T (ofTwo function args loc f) := by
  refine .andThen (Argument.tame_array ..) fun ra _ => ?_
  refine .andThen (Argument.tame_array ..) fun rb _ => ?_
  refine .andThen (Eval.tame_array ra) fun a ha => .andThen (Eval.tame_array rb) fun b hb => ?_
  exact tame_newList (hf _ _ ha hb)

theorem among_gathered {σ : Type} [Carries σ] {out : σ ⊕ Empty} (h : Among T out) :
    Among T (gathered out) := by
  cases out with
  | inl acc => exact among_inl.mp h
  | inr none => exact none.elim

theorem among_indexOrMinusOne (i : Option Nat) : Among T (indexOrMinusOne i) := by
  cases i <;> trivial

theorem among_firstOccurrences {xs : List Value} (h : Among T xs) :
    Among T (firstOccurrences xs) := by
  -- The fold keeps that what is collected so far is among `T`.
  have hfold (done : Array Value) (hd : Among T done) : Among T
      (xs.foldl (fun done v => if done.any (·.sameOrNaN v) then done else done.push v) done) := by
    induction xs generalizing done with
    | nil => exact hd
    | cons v rest ih =>
      obtain ⟨hv, hr⟩ := among_cons.mp h
      refine ih hr _ ?_
      dsimp only
      split
      · exact hd
      · exact hd.push hv
  exact hfold #[] among_emptyArray

theorem among_sorted {h : Heap} {xs : List Value} (hx : Among T xs) :
    Among T (sorted h xs) := by
  intro ys hy
  unfold sorted at hy
  -- Whichever of the orders is taken, the elements that come out are those that went in.
  split at hy
  · split at hy
    · exact Sorting.forall_stable among_default hx hy
    · cases hy
      exact hx.of_subset fun v hv => List.mem_mergeSort.mp hv
  · cases hy
    refine among_map.mpr fun p hp => ?_
    obtain ⟨v, hv, rfl⟩ := List.mem_map.mp (List.mem_mergeSort.mp hp)
    exact hx v hv

/-- The functions that call nothing back. -/
theorem tame_run (ev : Evaluator) {f : ArrayFn} (hf : f.callsBack = false) (args : List Value)
    (loc : Location) : Tame T (f.run ev args loc) := by
  cases f with
  | map | filter | forEach | find | findIndex | reduce => cases hf
  | includes =>
    refine .andThen (tame_items ..) fun xs _ => ?_
    dsimp only
    -- Where the search starts: at the front, at a number, or nowhere for any other argument.
    split
    · exact .andThen (.of_pure (a := 0) trivial) fun _ _ => .of_pure trivial
    · exact .andThen (.of_pure trivial) fun _ _ => .of_pure trivial
    · exact .andThen (.of_refuse (by simp [ArrayReport.fromIndexType, Report.badArgument]))
        fun (_ : Nat) _ => .of_pure trivial
  | indexOf =>
    refine .andThen (tame_items ..) fun xs _ => ?_
    refine .andThen (Argument.tame_optionalNumber ..) fun start _ => .of_pure ?_
    exact among_indexOrMinusOne _
  | lastIndexOf =>
    refine .andThen (tame_items ..) fun xs _ => .ite (.of_pure trivial) ?_
    refine .andThen (Argument.tame_optionalNumber ..) fun start _ => .of_pure ?_
    exact among_indexOrMinusOne _
  | slice => exact .andThen (Argument.tame_array ..) fun r _ => CoreFn.tame_sliceOf ..
  | first =>
    exact .andThen (tame_items ..) fun xs hx => .of_pure (hx.getD 0 among_null)
  | last =>
    refine .andThen (tame_items ..) fun xs hx => .of_pure (Among.ofOption ?_)
    exact hx.getElem? _
  | isEmpty => exact .andThen (tame_items ..) fun _ _ => .of_pure trivial
  | sort =>
    refine .andThen (tame_items ..) fun xs hx => ?_
    refine .andThen (.of_lookHeap fun h _ => among_sorted hx) fun sorted hs => ?_
    split
    · exact tame_newList (among_some.mp hs)
    · exact .of_halt _
  | reverse =>
    refine .andThen (tame_items ..) fun xs hx => tame_newArray ?_
    rw [← among_toList, Array.toList_reverse]
    exact among_reverse.mpr hx
  | concat =>
    exact .andThen (tame_concatFrom _ _ _ among_emptyArray) fun _ h =>
      tame_newArray h
  | unique =>
    exact .andThen (tame_items ..) fun xs hx =>
      tame_newList (among_firstOccurrences hx)
  | intersection =>
    -- Both filters keep elements of the first list.
    refine tame_ofTwo (f := fun a b => a.filter (has b)) _ _ _ ?_
    exact fun a b ha _ => ha.of_subset fun v hv => (List.mem_filter.mp hv).1
  | difference =>
    refine tame_ofTwo (f := fun a b => a.filter (!has b ·)) _ _ _ ?_
    exact fun a b ha _ => ha.of_subset fun v hv => (List.mem_filter.mp hv).1
  | unionOf =>
    exact tame_ofTwo _ _ _ fun a b ha hb =>
      among_firstOccurrences (among_append.mpr ⟨ha, hb⟩)

end ArrayFn

namespace AssertFn

theorem tame_remark (args : List Value) (position : Nat) : Tame T (remark args position) := by
  unfold remark
  split
  · exact .ite (.andThen (tame_print _) fun _ _ => .of_pure trivial) (.of_pure trivial)
  · exact .of_pure trivial

theorem tame_failWith (args : List Value) (position : Nat) (loc : Location) {reason : Eval String}
    (hr : Tame T reason) : Tame T (failWith args position loc reason) :=
  .andThen (tame_remark ..) fun _ _ => .andThen hr fun _ _ =>
    .of_refuse (by simp [AssertReport.failed])

theorem tame_expectBool (expected : Bool) (args : List Value) (loc : Location) :
    Tame T (expectBool expected args loc) := by
  refine .ite (.of_pure trivial) (tame_failWith _ _ _ ?_)
  exact .andThen (tame_print _) fun _ _ => .of_pure trivial

/-- All assertions but the one about an error. -/
theorem tame_run (ev : Evaluator) {f : AssertFn} (hf : f ≠ .throws) (args : List Value)
    (loc : Location) : Tame T (f.run ev args loc) := by
  cases f with
  | throws => exact absurd rfl hf
  | eq =>
    refine .andThen (.of_lookHeap fun _ _ => trivial) fun same _ => .ite ?_ ?_
    · exact .of_pure trivial
    · refine tame_failWith _ _ _ (.andThen (tame_print _) fun _ _ => ?_)
      exact .andThen (tame_print _) fun _ _ => .of_pure trivial
  | neq =>
    refine .andThen (.of_lookHeap fun _ _ => trivial) fun same _ => .ite ?_ ?_
    · exact tame_failWith _ _ _ (.of_pure trivial)
    · exact .of_pure trivial
  | isTrue | isFalse => exact tame_expectBool ..

end AssertFn

namespace ObjectFn

attribute [local simp] ObjectReport.needsObject ObjectReport.needsArray ObjectReport.keyType
  ObjectReport.badEntry

theorem tame_objectArg (function : String) (v : Value) (position : Nat) (loc : Location) :
    Tame T (objectArg function v position loc) := by
  unfold objectArg
  split
  · exact .of_pure trivial
  · exact .of_refuse (by simp)

theorem tame_arrayArg (function : String) (v : Value) (position : Nat) (loc : Location) :
    Tame T (arrayArg function v position loc) := by
  unfold arrayArg
  split
  · exact .of_pure trivial
  · exact .of_refuse (by simp)

theorem tame_keyTexts (function : String) (loc : Location) (i : Nat) (vs : List Value) :
    Tame T (keyTexts function loc i vs) := by
  induction vs generalizing i with
  | nil => exact .of_pure among_nil
  | cons v rest ih =>
    cases v with
    | string s => exact .andThen (ih (i + 1)) fun ss hs => .of_pure (among_cons.mpr ⟨trivial, hs⟩)
    | _ => exact .of_refuse (by simp)

theorem tame_withKeys (function : String) (args : List Value) (loc : Location) :
    Tame T (withKeys function args loc) := by
  refine .andThen (tame_objectArg ..) fun source _ => .andThen (tame_arrayArg ..) fun list _ => ?_
  refine .andThen (Eval.tame_array list) fun vs _ => .andThen (tame_keyTexts ..) fun keys hk => ?_
  exact .andThen (Eval.tame_object source) fun es he => .of_pure ⟨he, hk⟩

theorem tame_mergeFrom (loc : Location) (position : Nat) (args : List Value)
    {done : OrderedMap Value} (hd : Among T done) :
    Tame T (mergeFrom loc position args done) := by
  induction args generalizing position done with
  | nil => exact .of_pure hd
  | cons v rest ih =>
    refine .andThen (tame_objectArg ..) fun r _ => .andThen (Eval.tame_object r) fun es he => ?_
    exact ih _ (hd.insertAll he)

theorem tame_entryParts (v : Value) : Tame T (entryParts v) := by
  unfold entryParts
  split
  · exact .map (Eval.tame_array _) fun _ h => h
  · exact .of_pure among_nil

theorem tame_entriesFrom (loc : Location) (i : Nat) (vs : List Value) {done : OrderedMap Value}
    (hd : Among T done) : Tame T (entriesFrom loc i vs done) := by
  induction vs generalizing i done with
  | nil => exact .of_pure hd
  | cons v rest ih =>
    refine .andThen (tame_entryParts v) fun parts hp => ?_
    split
    · simp only [among_cons] at hp
      exact .andThen (tame_print _) fun key _ => ih _ (hd.insert key hp.2.1)
    · exact .of_refuse (by simp)

/-- All functions of objects but the one that calls back for every entry. -/
theorem tame_run (ev : Evaluator) {f : ObjectFn} (hf : f ≠ .mapValues) (args : List Value)
    (loc : Location) : Tame T (f.run ev args loc) := by
  cases f with
  | mapValues => exact absurd rfl hf
  | merge =>
    exact .andThen (tame_mergeFrom _ _ _ among_emptyMap) fun _ h =>
      tame_newObject h
  | pick =>
    refine .andThen (tame_withKeys ..) fun r hr => tame_newObject ?_
    refine Among.ofList fun e he => ?_
    -- An entry that is picked carries a value that was looked up in the object.
    obtain ⟨k, -, hk⟩ := List.mem_filterMap.mp he
    obtain ⟨v, hv, rfl⟩ := Option.map_eq_some_iff.mp hk
    exact ⟨trivial, hr.1.get? k v hv⟩
  | «omit» =>
    refine .andThen (tame_withKeys ..) fun r hr => tame_newObject ?_
    exact Among.ofList (hr.1.toList.of_subset fun e he => (List.mem_filter.mp he).1)
  | fromEntries =>
    refine .andThen (tame_arrayArg ..) fun list _ => ?_
    refine .andThen (Eval.tame_array list) fun xs _ => ?_
    exact .andThen (tame_entriesFrom _ _ _ among_emptyMap) fun _ h => tame_newObject h
  | isEmpty =>
    refine .andThen (tame_objectArg ..) fun r _ => ?_
    exact .andThen (tame_object r) fun _ _ => .of_pure trivial

end ObjectFn

/-! ### Modules without callbacks -/

namespace DatetimeFn

attribute [local simp] DatetimeReport.needsInstant DatetimeReport.millisType
  DatetimeReport.outOfRange DatetimeReport.patternType

theorem tame_run (f : DatetimeFn) (args : List Value) (loc : Location) :
    Tame T (f.run args loc) := by
  have hi (function : String) (v : Value) : Tame T (instantArg function v loc) := by
    unfold instantArg
    split
    · exact .of_pure trivial
    · exact .of_refuse (by simp)
  cases f with
  | now => exact .of_look fun _ _ => trivial
  | getTimestamp | toIsoString => exact .andThen (hi _ _) fun _ _ => .of_pure trivial
  | fromTimestamp =>
    dsimp only [run]
    split
    · split
      · exact .of_pure trivial
      · exact .of_refuse (by simp)
    · exact .of_refuse (by simp)
  | format =>
    refine .andThen (hi _ _) fun t _ => ?_
    split
    · exact .of_pure trivial
    · exact .of_refuse (by simp)

end DatetimeFn

theorem EnvFn.tame_run (f : EnvFn) {args : List Value} (h : Among T args) (loc : Location) :
    Tame T (f.run args loc) := by
  have hn (function : String) (v : Value) : Tame T (nameArg function v loc) := by
    unfold nameArg
    split
    · exact .of_pure trivial
    · exact .of_refuse (by simp [SurroundingsReport.needsText])
  cases f with
  | get =>
    refine .andThen (hn _ _) fun name _ => .andThen (.of_ask fun _ _ _ => trivial) fun found _ => ?_
    split
    · exact .of_pure trivial
    · exact .of_pure (among_nth h 2)
  | has =>
    exact .andThen (hn _ _) fun name _ => .andThen (.of_ask fun _ _ _ => trivial) fun _ _ =>
      .of_pure trivial
  | everything =>
    refine .andThen (.of_ask fun _ _ _ => ⟨trivial, trivial⟩) fun all _ => tame_newObject ?_
    exact Among.ofList (among_map.mpr fun e _ => ⟨trivial, trivial⟩)

namespace FilesFn

attribute [local simp] SurroundingsReport.pathType SurroundingsReport.contentType

theorem tame_pathArg (function : String) (v : Value) (loc : Location) :
    Tame T (pathArg function v loc) := by
  unfold pathArg
  split
  · exact .of_pure trivial
  · exact .of_refuse (by simp)

/-- An answer of the host holds no functions. -/
theorem tame_asked {α : Type} (f : Host → Except HostFailure α) : Tame T (ask f) :=
  .of_ask fun _ => trivial

/-- The code of a failed operation is that of a file operation. -/
theorem tame_answer {α : Type} [Carries α] {op : Operation} (hop : op.code ≠ "CTRL002")
    (path : String) {x : Except HostFailure α} (hx : ∀ a, x = .ok a → Among T a)
    (loc : Location) : Tame T (answer op path x loc) := by
  cases x with
  | ok a => exact .of_pure (hx a rfl)
  | error e => exact .of_refuse hop

theorem tame_alter {op : Operation} (hop : op.code ≠ "CTRL002") (path : String)
    (f : Host → Except HostFailure Host) (loc : Location) : Tame T (alter op path f loc) :=
  .andThen (.of_act f) fun _ _ => tame_answer hop _ (fun _ _ => among_plain _) loc

theorem tame_run (f : FilesFn) (args : List Value) (loc : Location) :
    Tame T (f.run args loc) := by
  cases f with
  | readFile =>
    refine .andThen (tame_pathArg ..) fun path _ => ?_
    refine .andThen (tame_asked _) fun x _ => ?_
    exact .andThen (tame_answer (by simp [reading]) _ (fun _ _ => among_plain _) _) fun _ _ =>
      .of_pure trivial
  | listDir =>
    refine .andThen (tame_pathArg ..) fun path _ => ?_
    refine .andThen (tame_asked _) fun x _ => ?_
    have hx (names : List String) (_ : x = .ok names) : Among T names := fun _ _ => trivial
    refine .andThen (tame_answer (by simp [listing]) _ hx _) fun _ _ => ?_
    exact tame_newList (among_map.mpr fun _ _ => trivial)
  | writeFile =>
    refine .andThen (tame_pathArg ..) fun path _ => ?_
    split
    · exact .andThen (tame_alter (by simp [writing]) ..) fun _ _ => .of_pure trivial
    · exact .of_refuse (by simp)
  | present =>
    exact .andThen (tame_pathArg ..) fun path _ => .andThen (.of_ask fun _ => trivial) fun _ _ =>
      .of_pure trivial
  | makeDir =>
    exact .andThen (tame_pathArg ..) fun path _ =>
      .andThen (tame_alter (by simp [making]) ..) fun _ _ => .of_pure trivial
  | removeFile =>
    exact .andThen (tame_pathArg ..) fun path _ =>
      .andThen (tame_alter (by simp [removingFile]) ..) fun _ _ => .of_pure trivial
  | removeDir =>
    exact .andThen (tame_pathArg ..) fun path _ =>
      .andThen (tame_alter (by simp [removingDirectory]) ..) fun _ _ => .of_pure trivial

end FilesFn

namespace HttpFn

attribute [local simp] SurroundingsReport.needsText SurroundingsReport.headersType
  SurroundingsReport.bodyType

theorem tame_urlArg (function : String) (v : Value) (loc : Location) :
    Tame T (urlArg function v loc) := by
  unfold urlArg
  split
  · exact .of_pure trivial
  · exact .of_refuse (by simp)

theorem tame_send (r : WebRequest) {code : String} (hc : code ≠ "CTRL002") (loc : Location) :
    Tame T (send r code loc) := by
  have hx : Tame T (exchange r) := ⟨fun m hm => ⟨rfl, trivial, hm⟩⟩
  refine .andThen hx fun answer _ => ?_
  split
  · exact tame_newObject (Among.ofList (by simp))
  · exact .of_refuse hc

theorem tame_headersOf (extra : Option Value) (loc : Location) :
    Tame T (headersOf extra loc) := by
  have hplain (hs : List (String × String)) : Among T hs := fun _ _ => ⟨trivial, trivial⟩
  unfold headersOf
  split
  · exact .of_pure (hplain _)
  · exact .of_lookHeap fun _ _ => hplain _
  · exact .of_refuse (by simp)

theorem tame_run (f : HttpFn) (args : List Value) (loc : Location) :
    Tame T (f.run args loc) := by
  cases f with
  | get => exact .andThen (tame_urlArg ..) fun url _ => tame_send _ (by simp) loc
  | post =>
    refine .andThen (tame_urlArg ..) fun url _ => ?_
    split
    · exact .andThen (tame_headersOf ..) fun hs _ => tame_send _ (by simp) loc
    · exact .of_refuse (by simp)

end HttpFn

namespace JsonFn

mutual

theorem tame_ofJson : (j : JsonValue) → Tame T (ofJson j)
  | .null | .bool _ | .number _ | .string _ => .of_pure trivial
  | .array items => by
    unfold ofJson
    exact .andThen (tame_ofItems items among_emptyArray) fun _ h => tame_newArray h
  | .object members => by
    unfold ofJson
    exact .andThen (tame_ofMembers members among_emptyMap) fun _ h => tame_newObject h

theorem tame_ofItems : (js : List JsonValue) → {done : Array Value} → Among T done →
    Tame T (ofItems js done)
  | [], _, hd => .of_pure hd
  | j :: rest, _, hd => by
    unfold ofItems
    exact .andThen (tame_ofJson j) fun _ hv => tame_ofItems rest (hd.push hv)

theorem tame_ofMembers : (js : List (String × JsonValue)) → {done : OrderedMap Value} →
    Among T done → Tame T (ofMembers js done)
  | [], _, hd => .of_pure hd
  | (k, j) :: rest, _, hd => by
    unfold ofMembers
    exact .andThen (tame_ofJson j) fun _ hv => tame_ofMembers rest (hd.insert k hv)

end

attribute [local simp] DocumentReport.textType DocumentReport.unreadable DocumentReport.circular
  DocumentReport.negativeIndent DocumentReport.indentType

theorem tame_indentOf (args : List Value) (loc : Location) : Tame T (indentOf args loc) := by
  unfold indentOf
  split
  · exact .of_pure trivial
  · exact .ite (.of_refuse (by simp)) (.of_pure trivial)
  · exact .of_pure trivial
  · exact .of_refuse (by simp)

theorem tame_run (f : JsonFn) (args : List Value) (loc : Location) :
    Tame T (f.run args loc) := by
  cases f with
  | parse =>
    dsimp only [run]
    split
    · split
      · exact tame_ofJson _
      · exact .of_refuse (by simp)
    · exact .of_refuse (by simp)
  | stringify =>
    refine .andThen (tame_indentOf ..) fun indent _ => .andThen (.of_lookHeap fun _ _ => trivial) ?_
    intro j _
    split
    · exact .of_pure trivial
    · exact .of_pure trivial
    · exact .of_refuse (by simp)

end JsonFn

namespace MathFn

theorem tame_extremumFrom (function : String) (prefers : Float → Float → Bool) (loc : Location)
    (position : Nat) (args : List Value) (best : Option Float) :
    Tame T (extremumFrom function prefers loc position args best) := by
  induction args generalizing position best with
  | nil => exact .of_pure fun _ _ => trivial
  | cons v rest ih => exact .andThen (tame_number ..) fun x _ => ih _ _

theorem tame_extremum (function : String) (prefers : Float → Float → Bool) (args : List Value)
    (loc : Location) : Tame T (extremum function prefers args loc) :=
  .andThen (tame_extremumFrom ..) fun _ _ => .of_pure trivial

theorem tame_draw : Tame T draw := ⟨fun _ hm => ⟨rfl, trivial, hm⟩⟩

theorem tame_pair (function : String) (args : List Value) (loc : Location) :
    Tame T (pair function args loc) :=
  .andThen (tame_number ..) fun _ _ => .andThen (tame_number ..) fun _ _ =>
    .of_pure ⟨trivial, trivial⟩

theorem tame_run (f : MathFn) (args : List Value) (loc : Location) :
    Tame T (f.run args loc) := by
  -- The functions of one number come to the same.
  have hone (op : Float → Float) : Tame T (do
      return Value.number (op (← number f.signature.1 (nth args 1) 1 loc))) :=
    .andThen (tame_number ..) fun _ _ => .of_pure trivial
  cases f with
  | atan2 | pow => exact .andThen (tame_pair ..) fun _ _ => .of_pure trivial
  | max | min => exact tame_extremum ..
  | random => exact .andThen tame_draw fun _ _ => .of_pure trivial
  | seed =>
    refine .andThen (tame_number ..) fun x _ => ?_
    have hseed : Tame T (change fun m => { m with random := RandomState.ofSeed x }) :=
      ⟨fun _ hm => ⟨rfl, trivial, hm⟩⟩
    exact .andThen hseed fun _ _ => .of_pure trivial
  | randint =>
    exact .andThen (tame_pair ..) fun _ _ => .andThen tame_draw fun _ _ => .of_pure trivial
  | _ => exact hone _

end MathFn

namespace PathFn

attribute [local simp] SurroundingsReport.needsText

theorem tame_pathArg (function : String) (v : Value) (position : Nat) (loc : Location) :
    Tame T (pathArg function v position loc) := by
  unfold pathArg
  split
  · exact .of_pure trivial
  · exact .of_refuse (by simp)

theorem tame_pathArgs (function : String) (loc : Location) (position : Nat) (args : List Value) :
    Tame T (pathArgs function loc position args) := by
  induction args generalizing position with
  | nil => exact .of_pure among_nil
  | cons v rest ih =>
    exact .andThen (tame_pathArg ..) fun s _ => .andThen (ih _) fun ss hs =>
      .of_pure (among_cons.mpr ⟨trivial, hs⟩)

theorem tame_run (f : PathFn) (args : List Value) (loc : Location) :
    Tame T (f.run args loc) := by
  cases f with
  | join | resolve => exact .andThen (tame_pathArgs ..) fun _ _ => .of_look fun _ _ => trivial
  | basename =>
    refine .andThen (tame_pathArg ..) fun path _ => ?_
    split
    · exact .of_look fun _ _ => trivial
    · exact .andThen (tame_pathArg ..) fun _ _ => .of_look fun _ _ => trivial
  | _ => exact .andThen (tame_pathArg ..) fun _ _ => .of_look fun _ _ => trivial

end PathFn

namespace RegexFn

attribute [local simp] RegexReport.textType RegexReport.invalid RegexReport.badFlag

theorem tame_textArg (f : RegexFn) (args : List Value) (position : Nat) (loc : Location) :
    Tame T (f.textArg args position loc) := by
  unfold textArg
  split
  · exact .of_pure trivial
  · exact .of_refuse (by simp)

theorem tame_flagsArg (f : RegexFn) (args : List Value) (position : Nat) (default : String)
    (loc : Location) : Tame T (f.flagsArg args position default loc) := by
  unfold flagsArg
  split
  · exact .of_pure trivial
  · exact .andThen (tame_textArg ..) fun _ _ => .of_pure trivial

theorem tame_compile (pattern flags : String) (loc : Location) :
    Tame T (compile pattern flags loc) := by
  unfold compile
  split
  · exact .of_refuse (by simp)
  · split
    · exact .of_refuse (by simp)
    · exact .of_pure ⟨trivial, trivial⟩

theorem tame_firstMatch (r : Regex) (text : Array Char) : Tame T (firstMatch r text) := by
  unfold firstMatch
  split
  · exact .of_pure trivial
  · refine tame_newArray fun v hv => ?_
    obtain ⟨g, -, rfl⟩ := Array.mem_map.mp (Array.mem_toList_iff.mp hv)
    cases g <;> trivial

theorem tame_allMatches (r : Regex) (text : Array Char) : Tame T (allMatches r text) := by
  unfold allMatches
  split
  · exact .of_pure trivial
  · exact tame_newArray (among_toArray.mpr (among_map.mpr fun _ _ => trivial))

theorem tame_matchFlags (f : RegexFn) (args : List Value) (loc : Location) :
    Tame T (f.matchFlags args loc) :=
  .ite (tame_textArg ..) (.of_pure trivial)

theorem tame_run (f : RegexFn) (args : List Value) (loc : Location) :
    Tame T (f.run args loc) := by
  refine .andThen (tame_textArg ..) fun first _ => .andThen (tame_textArg ..) fun second _ => ?_
  cases f with
  | findMatches =>
    refine .andThen (tame_matchFlags ..) fun flags _ => .andThen (tame_compile ..) fun c _ => ?_
    exact .ite (tame_allMatches ..) (tame_firstMatch ..)
  | isMatch =>
    exact .andThen (tame_flagsArg ..) fun flags _ => .andThen (tame_compile ..) fun _ _ =>
      .of_pure trivial
  | extract =>
    exact .andThen (tame_flagsArg ..) fun flags _ => .andThen (tame_compile ..) fun _ _ =>
      tame_firstMatch ..
  | replaceAll =>
    refine .andThen (tame_textArg ..) fun replacement _ => .andThen (tame_flagsArg ..) fun _ _ => ?_
    exact .andThen (tame_compile ..) fun _ _ => .of_pure trivial

end RegexFn

namespace StringFn

attribute [local simp] StringReport.emptySearch StringReport.separatorType
  StringReport.numberPattern StringReport.patternType StringReport.repeatCount

theorem tame_padding (function : String) (args : List Value) (loc : Location) :
    Tame T (padding function args loc) := by
  refine .andThen (tame_text ..) fun s _ => .andThen (tame_number ..) fun x _ => ?_
  have hfill (pad : String) : Tame T (if Binary.cutToCount x ≤ s.length || pad.isEmpty then
        pure (s, "")
      else if maxCollectionLength < Binary.cutToCount x then
        fail (.resultTooLarge function
          (Layout.plain.write (Binary.ofNat (Binary.cutToCount x)))) loc
      else pure (s, String.ofList (cycle pad.toList [] (Binary.cutToCount x - s.length)))) :=
    .ite (.of_pure ⟨trivial, trivial⟩) (.ite (.of_fail nofun) (.of_pure ⟨trivial, trivial⟩))
  dsimp only
  split
  · exact .andThen (tame_text ..) fun pad _ => hfill pad
  · exact .andThen (.of_pure (a := " ") trivial) fun pad _ => hfill pad

theorem tame_chars (function : String) (args : List Value) (position : Nat) (loc : Location) :
    Tame T (chars function args position loc) :=
  .andThen (tame_text ..) fun _ _ => .of_pure fun _ _ => trivial

theorem tame_count (function : String) (args : List Value) (position fallback : Nat)
    (loc : Location) : Tame T (count function args position fallback loc) := by
  refine .andThen (tame_optionalNumber ..) fun x _ => ?_
  split <;> exact .of_pure trivial

theorem tame_separator (args : List Value) (loc : Location) : Tame T (separator args loc) := by
  unfold separator
  split
  · exact .of_pure among_none
  · exact .of_pure fun _ _ => trivial
  · exact .of_pure fun _ _ => trivial
  · exact .of_refuse (by simp)

theorem tame_pattern (function : String) (args : List Value) (loc : Location) :
    Tame T (pattern function args loc) := by
  unfold pattern
  split
  · exact .of_pure trivial
  · exact .of_refuse (by simp)
  · exact .of_refuse (by simp)

theorem tame_replaceWith (function : String) (replaced : String → String → String → String)
    (args : List Value) (loc : Location) : Tame T (replaceWith function replaced args loc) :=
  .andThen (tame_text ..) fun _ _ => .andThen (tame_pattern ..) fun _ _ =>
    .andThen (tame_text ..) fun _ _ => .of_pure trivial

theorem tame_repetition (args : List Value) (loc : Location) :
    Tame T (repetition args loc) := by
  refine .andThen (tame_text ..) fun s _ => .andThen (tame_number ..) fun x _ => ?_
  exact .ite (.of_refuse (by simp)) (.ite (.of_fail nofun) (.of_pure trivial))

theorem among_indexOrMinusOne (i : Option Nat) : Among T (indexOrMinusOne i) := by
  cases i <;> trivial

/-- Two texts and an optional position, from which a result is computed. -/
private theorem tame_search (function : String) (args : List Value) (fallback : List Char → Nat)
    (loc : Location) {f : List Char → List Char → Nat → Value}
    (hf : ∀ s search i, Among T (f s search i)) :
    Tame T (do
      let s ← chars function args 1 loc
      let search ← chars function args 2 loc
      let i ← count function args 3 (fallback s) loc
      return f s search i) :=
  .andThen (tame_chars ..) fun s _ => .andThen (tame_chars ..) fun search _ =>
    .andThen (tame_count ..) fun i _ => .of_pure (hf s search i)

theorem tame_run (f : StringFn) (args : List Value) (loc : Location) :
    Tame T (f.run args loc) := by
  -- The functions of one text come to the same.
  have hone (op : String → String) : Tame T (do
      return Value.string (op (← text f.signature.1 (nth args 1) 1 loc))) :=
    .andThen (tame_text ..) fun _ _ => .of_pure trivial
  cases f with
  | padStart | padEnd => exact .andThen (tame_padding ..) fun _ _ => .of_pure trivial
  | startsWith => exact tame_search _ _ (fun _ => 0) _ fun _ _ _ => trivial
  | indexOf => exact tame_search _ _ (fun _ => 0) _ fun _ _ _ => among_indexOrMinusOne _
  | endsWith => exact tame_search _ _ List.length _ fun _ _ _ => trivial
  | contains =>
    refine .andThen (tame_chars ..) fun s _ => .andThen (tame_chars ..) fun search _ => ?_
    exact .ite (.of_refuse (by simp)) (.andThen (tame_count ..) fun _ _ => .of_pure trivial)
  | lastIndexOf =>
    refine .andThen (tame_chars ..) fun s _ => .andThen (tame_chars ..) fun search _ => ?_
    refine .andThen (tame_optionalNumber ..) fun last _ => ?_
    split <;> exact .andThen (.of_pure trivial) fun _ _ => .of_pure (among_indexOrMinusOne _)
  | substring =>
    refine .andThen (tame_chars ..) fun s _ => .andThen (tame_number ..) fun first _ => ?_
    exact .andThen (tame_count ..) fun _ _ => .of_pure trivial
  | slice =>
    refine .andThen (tame_chars ..) fun s _ => .andThen (tame_number ..) fun first _ => ?_
    exact .andThen (tame_optionalNumber ..) fun _ _ => .of_pure trivial
  | split =>
    refine .andThen (tame_text ..) fun s _ => .andThen (tame_separator ..) fun sep _ => ?_
    exact .andThen (tame_count ..) fun _ _ => tame_newList (among_map.mpr fun _ _ => trivial)
  | replace | replaceAll => exact tame_replaceWith ..
  | repeated => exact tame_repetition ..
  | charAt =>
    exact .andThen (tame_chars ..) fun s _ => .andThen (tame_number ..) fun _ _ => .of_pure trivial
  | isEmpty | isBlank => exact .andThen (tame_text ..) fun _ _ => .of_pure trivial
  | _ => exact hone _

end StringFn

/-! ### Modules as objects -/

namespace Eval

theorem tame_builtinMembers (fs : List Builtin) : Tame T (builtinMembers fs) := by
  induction fs with
  | nil => exact .of_pure among_nil
  | cons f fs ih =>
    exact .andThen tame_newIdentity fun id _ => .andThen ih fun es he =>
      .of_pure (among_cons.mpr ⟨⟨trivial, trivial⟩, he⟩)

theorem tame_buildStandard (s : StandardModule) : Tame T (buildStandard s) := by
  refine .andThen (tame_builtinMembers _) fun fs hf => tame_newObject (Among.ofList ?_)
  refine among_append.mpr ⟨?_, hf⟩
  cases s <;> simp [standardMembers]

end Eval

end ScriptLang
