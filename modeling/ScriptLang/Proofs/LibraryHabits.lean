import ScriptLang.Library.Dispatch
import ScriptLang.Proofs.Local

/-!
# Habits of the library

The functions of the library are put together from few steps: they look at the heap, raise errors,
deal with the host and make new containers. What is true of these steps and passes from one
computation to the next is true of all functions, but for those that call back into the program and
the three that write into a container.

* A `Habit` is something that is true of such steps, and `Habit.Follows` is the judgement that a
  computation has it.
* `Builtin.callsBack` and `Builtin.writes` are the functions that are left out, and
  `Builtin.follows_run` is the result for all others.

The lemmas follow the modules of the library, one for each function and helper; recursive helpers
are treated by induction on the list that they walk through. They are simp lemmas, so that `simp`
goes through a function once its cases are split.
-/

namespace ScriptLang

open Eval

/-- **Habit.** What computations at a place have in common: those that leave the heap alone have it,
and so do new containers, and one computation after the other. -/
structure Habit (loc : Location) where
  holds : {α : Type} → Eval α → Prop
  basic : ∀ {α : Type} {x : Eval α}, Confined loc x → (∀ m, (x m).machine.heap = m.heap) → holds x
  andThen : ∀ {α β : Type} {x : Eval α} {f : α → Eval β}, holds x → (∀ a, holds (f a)) →
    holds (x >>= f)
  array : ∀ items, holds (newArray items)
  object : ∀ entries, holds (newObject entries)

variable {loc : Location} {H : Habit loc} {α β : Type}

/-- The computation has the habit. -/
structure Habit.Follows (H : Habit loc) (x : Eval α) : Prop where
  holds : H.holds x

namespace Habit.Follows

/-! ### Rules -/

theorem of_confined {x : Eval α} (hx : Confined loc x) (hh : ∀ m, (x m).machine.heap = m.heap) :
    H.Follows x := ⟨H.basic hx hh⟩

@[simp] theorem of_pure (a : α) : H.Follows (pure a) := of_confined (.of_pure a) fun _ => rfl

@[simp] theorem of_fail (f : RuntimeFault) :
    H.Follows (fail f loc : Eval α) := of_confined (.of_fail f loc) fun _ => rfl

@[simp] theorem of_refuse (r : Report) :
    H.Follows (refuse r loc : Eval α) := of_confined (.of_refuse r loc) fun _ => rfl

@[simp] theorem of_halt (r : Halt) : H.Follows (halt r : Eval α) :=
  of_confined (.of_halt r) fun _ => rfl

@[simp] theorem of_look (f : Machine → α) : H.Follows (look f) :=
  of_confined (.of_look f) fun _ => rfl

@[simp] theorem of_lookHeap (f : Heap → α) : H.Follows (lookHeap f) := of_look _

@[simp] theorem of_ask (f : Host → α) : H.Follows (ask f) := of_confined (.of_ask f) fun _ => rfl

/-- An operation that gives a host with the same path rules. -/
theorem of_act {f : Host → Except HostFailure Host}
    (hf : ∀ h h', f h = .ok h' → h'.paths = h.paths) : H.Follows (act f) := by
  refine of_confined (.of_act hf) fun m => ?_
  unfold act
  split <;> rfl

@[simp] theorem andThen {x : Eval α} {f : α → Eval β} (hx : H.Follows x)
    (hf : ∀ a, H.Follows (f a)) : H.Follows (x >>= f) := ⟨H.andThen hx.holds fun a => (hf a).holds⟩

@[simp] theorem map {f : α → β} {x : Eval α} (hx : H.Follows x) : H.Follows (f <$> x) :=
  andThen hx fun _ => of_pure _

@[simp] theorem ite {c : Prop} [Decidable c] {x y : Eval α} (hx : H.Follows x)
    (hy : H.Follows y) : H.Follows (if c then x else y) := by
  split
  · exact hx
  · exact hy

end Habit.Follows

open Habit

/-! ### Containers -/

section Containers

@[simp] theorem follows_newArray (items : Array Value) : H.Follows (newArray items) :=
  ⟨H.array items⟩

@[simp] theorem follows_newList (items : List Value) : H.Follows (newList items) :=
  follows_newArray _

@[simp] theorem follows_newObject (entries : OrderedMap Value) : H.Follows (newObject entries) :=
  ⟨H.object entries⟩

@[simp] theorem follows_readArray (r : Ref) : H.Follows (Eval.array r) := .of_lookHeap _

@[simp] theorem follows_readObject (r : Ref) : H.Follows (Eval.object r) := .of_lookHeap _

@[simp] theorem follows_print (v : Value) : H.Follows (print v) := by
  unfold print
  split <;> simp

@[simp] theorem follows_memberOf (v : Value) (name : String) (safe : Bool) :
    H.Follows (memberOf v name safe loc) := by
  unfold memberOf
  split <;> simp

end Containers

/-! ### Arguments -/

namespace Argument

@[simp] theorem follows_number (function : String) (v : Value) (position : Nat) :
    H.Follows (number function v position loc) := by
  unfold number
  split <;> simp

@[simp] theorem follows_text (function : String) (v : Value) (position : Nat) :
    H.Follows (text function v position loc) := by
  unfold text
  split <;> simp

@[simp] theorem follows_array (function : String) (v : Value) (position : Nat) :
    H.Follows (array function v position loc) := by
  unfold array
  split <;> simp

@[simp] theorem follows_callback (function : String) (v : Value) (position : Nat) :
    H.Follows (callback function v position loc) := by
  unfold callback
  split <;> simp

@[simp] theorem follows_optionalNumber (function : String) (args : List Value) (position : Nat) :
    H.Follows (optionalNumber function args position loc) := by
  unfold optionalNumber
  split <;> simp

end Argument

/-! ### Functions of every program -/

namespace CoreFn

@[simp] theorem follows_sliceEnd (args : List Value) (position length fallback : Nat) :
    H.Follows (sliceEnd args position length fallback loc) := by
  unfold sliceEnd
  split <;> simp

@[simp] theorem follows_sliceOf (r : Ref) (args : List Value) :
    H.Follows (sliceOf r args loc) := by
  refine .andThen (follows_readArray r) fun items => ?_
  simp

@[simp] theorem follows_numbersOf (args : List Value) :
    H.Follows (numbersOf loc args) := by
  induction args with
  | nil => simp [numbersOf]
  | cons v rest ih => cases v <;> simp [numbersOf, ih]

@[simp] theorem follows_rangeOf (args : List Value) :
    H.Follows (rangeOf args loc) := by
  refine .andThen (follows_numbersOf args) fun xs => ?_
  refine .ite (by simp) ?_
  dsimp only
  exact .ite (by simp) (.ite (by simp) (by simp))

@[simp] theorem follows_pairs (entries : List (String × Value)) :
    H.Follows (pairs entries) := by
  induction entries with
  | nil => simp [pairs]
  | cons e rest ih => simp [pairs, ih]

theorem follows_listing (function : String) (v : Value)
    {ofArray : Array Value → Eval Value} {ofObject : OrderedMap Value → Eval Value}
    (ha : ∀ items, H.Follows (ofArray items)) (ho : ∀ entries, H.Follows (ofObject entries)) :
    H.Follows (listing function v loc ofArray ofObject) := by
  unfold listing
  split <;> simp [ha, ho]

/-- Leaving halts, is refused or leads to another state of the host. -/
@[simp] theorem follows_leave (code : Int) : H.Follows (leave code loc) := by
  refine .of_confined ⟨⟨fun m => ?_⟩, fun {m m' d} e => ?_⟩ fun m => ?_
  · unfold leave
    split
    case h_1 => exact .of_host m.host.paths_asked
    case h_2 host h => exact .of_host (Host.paths_leave h)
    case h_3 => exact .refl m
  · unfold leave at e
    split at e
    case h_1 f h =>
      cases e
      exact (CoreReport.exitRefused f).fresh_toDiagnostic loc _
    case h_2 => cases e
    case h_3 => cases e
  · unfold leave
    split <;> rfl

@[simp] theorem follows_getFrom (v key : Value) :
    H.Follows (getFrom v key loc) := by
  unfold getFrom
  repeat' split
  all_goals simp

@[simp] theorem follows_memberSafely (target name : Value) :
    H.Follows (memberSafely target name loc) := by
  unfold memberSafely
  repeat' split
  all_goals simp

@[simp] theorem follows_joined (items separator : Value) :
    H.Follows (joined items separator loc) := by
  unfold joined
  split <;> simp

@[simp] theorem follows_hasMember (target key : Value) : H.Follows (hasMember target key) :=
  .of_lookHeap _

/-- The functions that write into a container. -/
def writes : CoreFn → Bool
  | .push | .pop | .update => true
  | _ => false

theorem follows_run {f : CoreFn} (hf : f.writes = false) (args : List Value) :
    H.Follows (f.run args loc) := by
  cases f with
  | push | pop | update => cases hf
  | keys | values => exact follows_listing _ _ (fun _ => by simp) fun _ => by simp
  | entries => exact follows_listing _ _ (fun _ => by simp) fun _ => by simp
  | len | slice | getEnv | exitCode =>
    dsimp only [run]
    split <;> simp
  | _ => simp [run]

end CoreFn

/-! ### Modules with callbacks -/

namespace ArrayFn

@[simp] theorem follows_items (function : String) (args : List Value) (position : Nat) :
    H.Follows (items function args position loc) := by
  simp [items]

@[simp] theorem follows_concatFrom (position : Nat) (args : List Value)
    (done : Array Value) : H.Follows (concatFrom loc position args done) := by
  induction args generalizing position done with
  | nil => simp [concatFrom]
  | cons v rest ih => simp [concatFrom, ih]

@[simp] theorem follows_ofTwo (function : String) (args : List Value)
    (f : List Value → List Value → List Value) : H.Follows (ofTwo function args loc f) := by
  refine .andThen (Argument.follows_array ..) fun a =>
    .andThen (Argument.follows_array ..) fun b => ?_
  simp

/-- The functions that call a function of the program for every element. -/
def callsBack : ArrayFn → Bool
  | .map | .filter | .forEach | .find | .findIndex | .reduce => true
  | _ => false

theorem follows_run (ev : Evaluator) {f : ArrayFn} (hf : f.callsBack = false) (args : List Value) :
    H.Follows (f.run ev args loc) := by
  cases f with
  | map | filter | forEach | find | findIndex | reduce => cases hf
  | includes =>
    refine .andThen (follows_items ..) fun xs => ?_
    dsimp only
    repeat' split
    all_goals simp
  | indexOf =>
    exact .andThen (follows_items ..) fun xs =>
      .andThen (Argument.follows_optionalNumber ..) fun start => .of_pure _
  | lastIndexOf => exact .andThen (follows_items ..) fun xs => .ite (by simp) (by simp)
  | sort =>
    refine .andThen (follows_items ..) fun xs => .andThen (.of_lookHeap _) fun sorted => ?_
    split <;> simp
  | _ => simp [run]

end ArrayFn

namespace AssertFn

@[simp] theorem follows_remark (args : List Value) (position : Nat) :
    H.Follows (remark args position) := by
  unfold remark
  split <;> simp

@[simp] theorem follows_failWith (args : List Value) (position : Nat)
    {reason : Eval String} (hr : H.Follows reason) :
    H.Follows (failWith args position loc reason) := by
  simp [failWith, hr]

@[simp] theorem follows_expectBool (expected : Bool) (args : List Value) :
    H.Follows (expectBool expected args loc) := by
  refine .ite (.of_pure _) (follows_failWith _ _ ?_)
  simp

/-- All assertions but the one about an error. -/
theorem follows_run (ev : Evaluator) {f : AssertFn} (hf : f ≠ .throws) (args : List Value) :
    H.Follows (f.run ev args loc) := by
  cases f with
  | throws => exact absurd rfl hf
  | eq =>
    refine .andThen (.of_lookHeap _) fun same => .ite (.of_pure _) ?_
    exact follows_failWith _ _ (by simp)
  | _ => simp [run]

end AssertFn

namespace ObjectFn

@[simp] theorem follows_objectArg (function : String) (v : Value) (position : Nat) :
    H.Follows (objectArg function v position loc) := by
  unfold objectArg
  split <;> simp

@[simp] theorem follows_arrayArg (function : String) (v : Value) (position : Nat) :
    H.Follows (arrayArg function v position loc) := by
  unfold arrayArg
  split <;> simp

@[simp] theorem follows_keyTexts (function : String) (i : Nat)
    (vs : List Value) : H.Follows (keyTexts function loc i vs) := by
  induction vs generalizing i with
  | nil => simp [keyTexts]
  | cons v rest ih => cases v <;> simp [keyTexts, ih]

@[simp] theorem follows_withKeys (function : String) (args : List Value) :
    H.Follows (withKeys function args loc) := by
  refine .andThen (follows_objectArg ..) fun source =>
    .andThen (follows_arrayArg ..) fun list => ?_
  exact .andThen (follows_readArray list) fun keys => by simp

@[simp] theorem follows_mergeFrom (position : Nat) (args : List Value)
    (done : OrderedMap Value) : H.Follows (mergeFrom loc position args done) := by
  induction args generalizing position done with
  | nil => simp [mergeFrom]
  | cons v rest ih => simp [mergeFrom, ih]

@[simp] theorem follows_entryParts (v : Value) : H.Follows (entryParts v) := by
  unfold entryParts
  split <;> simp

@[simp] theorem follows_entriesFrom (i : Nat) (vs : List Value)
    (done : OrderedMap Value) : H.Follows (entriesFrom loc i vs done) := by
  induction vs generalizing i done with
  | nil => simp [entriesFrom]
  | cons v rest ih =>
    refine .andThen (follows_entryParts v) fun parts => ?_
    -- Two elements are an entry, whatever else stands there is refused.
    split <;> simp [ih]

/-- All functions of objects but the one that calls a function of the program for every entry. -/
theorem follows_run (ev : Evaluator) {f : ObjectFn} (hf : f ≠ .mapValues) (args : List Value) :
    H.Follows (f.run ev args loc) := by
  cases f with
  | mapValues => exact absurd rfl hf
  | fromEntries => exact .andThen (follows_arrayArg ..) fun list => by simp
  | _ => simp [run]

end ObjectFn

/-! ### Modules without callbacks -/

theorem DatetimeFn.follows_run (f : DatetimeFn) (args : List Value) :
    H.Follows (f.run args loc) := by
  have hi (function : String) (v : Value) : H.Follows (instantArg function v loc) := by
    unfold instantArg
    split <;> simp
  cases f with
  | now => exact .of_look _
  | getTimestamp | toIsoString => simp [run, hi]
  | fromTimestamp =>
    dsimp only [run]
    repeat' split
    all_goals simp
  | format =>
    refine .andThen (hi _ _) fun t => ?_
    split <;> simp

theorem EnvFn.follows_run (f : EnvFn) (args : List Value) :
    H.Follows (f.run args loc) := by
  have hn (function : String) (v : Value) : H.Follows (nameArg function v loc) := by
    unfold nameArg
    split <;> simp
  cases f with
  | get =>
    refine .andThen (hn _ _) fun name => .andThen (.of_ask _) fun found => ?_
    split <;> simp
  | has => simp [run, hn]
  | everything => simp [run]

namespace FilesFn

@[simp] theorem follows_pathArg (function : String) (v : Value) :
    H.Follows (pathArg function v loc) := by
  unfold pathArg
  split <;> simp

@[simp] theorem follows_answer {α : Type} (op : Operation) (path : String)
    (x : Except HostFailure α) : H.Follows (answer op path x loc) := by
  cases x <;> simp [answer]

/-- An operation that gives a host with the same path rules. -/
theorem follows_alter (op : Operation) (path : String) {f : Host → Except HostFailure Host}
    (hf : ∀ h h', f h = .ok h' → h'.paths = h.paths) :
    H.Follows (alter op path f loc) :=
  .andThen (.of_act hf) fun _ => follows_answer ..

theorem follows_run (f : FilesFn) (args : List Value) :
    H.Follows (f.run args loc) := by
  cases f with
  | readFile | listDir =>
    exact .andThen (follows_pathArg ..) fun path => .andThen (.of_ask _) fun _ => by simp
  | writeFile =>
    refine .andThen (follows_pathArg ..) fun path => ?_
    split
    · exact .andThen (follows_alter _ _ (fun _ _ => Host.paths_write)) fun _ => .of_pure _
    · simp
  | present => simp [run]
  | makeDir =>
    refine .andThen (follows_pathArg ..) fun path => ?_
    exact .andThen (follows_alter _ _ (fun _ _ => Host.paths_makeDirectory)) fun _ => .of_pure _
  | removeFile =>
    refine .andThen (follows_pathArg ..) fun path => ?_
    exact .andThen (follows_alter _ _ (fun _ _ => Host.paths_removeFile)) fun _ => .of_pure _
  | removeDir =>
    refine .andThen (follows_pathArg ..) fun path => ?_
    exact .andThen (follows_alter _ _ (fun _ _ => Host.paths_removeDirectory)) fun _ =>
      .of_pure _

end FilesFn

namespace HttpFn

@[simp] theorem follows_urlArg (function : String) (v : Value) :
    H.Follows (urlArg function v loc) := by
  unfold urlArg
  split <;> simp

@[simp] theorem follows_send (r : WebRequest) (code : String) :
    H.Follows (send r code loc) := by
  have hx : H.Follows (exchange r) :=
    .of_confined (.of_local ⟨fun m => .of_host (Host.paths_fetch m.host r)⟩ fun _ _ _ => nofun)
      fun _ => rfl
  refine .andThen hx fun answer => ?_
  split <;> simp

@[simp] theorem follows_headersOf (extra : Option Value) :
    H.Follows (headersOf extra loc) := by
  unfold headersOf
  split <;> simp

theorem follows_run (f : HttpFn) (args : List Value) :
    H.Follows (f.run args loc) := by
  cases f with
  | get => simp [run]
  | post =>
    refine .andThen (follows_urlArg ..) fun url => ?_
    split <;> simp

end HttpFn

namespace JsonFn

mutual

@[simp] theorem follows_ofJson : (j : JsonValue) → H.Follows (ofJson j)
  | .null | .bool _ | .number _ | .string _ => by simp [ofJson]
  | .array items => by simp [ofJson, follows_ofItems items]
  | .object members => by simp [ofJson, follows_ofMembers members]

theorem follows_ofItems :
    (js : List JsonValue) → (done : Array Value) → H.Follows (ofItems js done)
  | [], done => by simp [ofItems]
  | j :: rest, done => by simp [ofItems, follows_ofJson j, follows_ofItems rest]

theorem follows_ofMembers :
    (js : List (String × JsonValue)) → (done : OrderedMap Value) → H.Follows (ofMembers js done)
  | [], done => by simp [ofMembers]
  | (k, j) :: rest, done => by simp [ofMembers, follows_ofJson j, follows_ofMembers rest]

end

theorem follows_run (f : JsonFn) (args : List Value) :
    H.Follows (f.run args loc) := by
  cases f with
  | parse =>
    dsimp only [run]
    repeat' split
    all_goals simp
  | stringify =>
    have hi : H.Follows (indentOf args loc) := by
      unfold indentOf
      split <;> simp
    refine .andThen hi fun indent => .andThen (.of_lookHeap _) fun j => ?_
    split <;> simp

end JsonFn

namespace MathFn

@[simp] theorem follows_extremumFrom (function : String) (prefers : Float → Float → Bool)
    (position : Nat) (args : List Value) (best : Option Float) :
    H.Follows (extremumFrom function prefers loc position args best) := by
  induction args generalizing position best with
  | nil => simp [extremumFrom]
  | cons v rest ih => simp [extremumFrom, ih]

/-- Drawing and seeding change the random state alone. -/
theorem follows_random (f : Nat → Nat) (g : Nat → α) :
    H.Follows fun m => .ok (g m.random) { m with random := f m.random } :=
  .of_confined (.of_local ⟨fun _ => ⟨rfl, rfl, rfl, rfl, rfl, rfl, rfl⟩⟩ fun _ _ _ => nofun)
    fun _ => rfl

@[simp] theorem follows_draw : H.Follows draw :=
  follows_random RandomState.next fun state => RandomState.fraction (RandomState.next state)

@[simp] theorem follows_pair (function : String) (args : List Value) :
    H.Follows (pair function args loc) := by
  simp [pair]

theorem follows_run (f : MathFn) (args : List Value) :
    H.Follows (f.run args loc) := by
  cases f with
  | seed => exact .andThen (Argument.follows_number ..) fun x =>
    .andThen (follows_random (fun _ => RandomState.ofSeed x) fun _ => ()) (by simp)
  | max | min => simp [run, extremum]
  | _ => simp [run, elementary?]

end MathFn

namespace PathFn

@[simp] theorem follows_pathArg (function : String) (v : Value) (position : Nat) :
    H.Follows (pathArg function v position loc) := by
  unfold pathArg
  split <;> simp

@[simp] theorem follows_pathArgs (function : String) (position : Nat)
    (args : List Value) : H.Follows (pathArgs function loc position args) := by
  induction args generalizing position with
  | nil => simp [pathArgs]
  | cons v rest ih => simp [pathArgs, ih]

theorem follows_run (f : PathFn) (args : List Value) :
    H.Follows (f.run args loc) := by
  cases f with
  | basename =>
    refine .andThen (follows_pathArg ..) fun path => ?_
    split <;> simp
  | _ => simp [run]

end PathFn

namespace RegexFn

@[simp] theorem follows_textArg (f : RegexFn) (args : List Value) (position : Nat) :
    H.Follows (f.textArg args position loc) := by
  unfold textArg
  split <;> simp

@[simp] theorem follows_flagsArg (f : RegexFn) (args : List Value) (position : Nat)
    (default : String) : H.Follows (f.flagsArg args position default loc) := by
  unfold flagsArg
  split <;> simp

@[simp] theorem follows_compile (pattern flags : String) :
    H.Follows (compile pattern flags loc) := by
  unfold compile
  repeat' split
  all_goals simp

@[simp] theorem follows_firstMatch (r : Regex) (text : Array Char) :
    H.Follows (firstMatch r text) := by
  unfold firstMatch
  split <;> simp

@[simp] theorem follows_allMatches (r : Regex) (text : Array Char) :
    H.Follows (allMatches r text) := by
  unfold allMatches
  split <;> simp

@[simp] theorem follows_matchFlags (f : RegexFn) (args : List Value) :
    H.Follows (f.matchFlags args loc) := by
  simp [matchFlags]

theorem follows_run (f : RegexFn) (args : List Value) :
    H.Follows (f.run args loc) := by
  refine .andThen (follows_textArg ..) fun first => .andThen (follows_textArg ..) fun second => ?_
  cases f with
  | findMatches =>
    exact .andThen (follows_matchFlags ..) fun flags =>
      .andThen (follows_compile ..) fun _ => by simp
  | isMatch | extract =>
    exact .andThen (follows_flagsArg ..) fun flags =>
      .andThen (follows_compile ..) fun _ => by simp
  | replaceAll =>
    refine .andThen (follows_textArg ..) fun replacement =>
      .andThen (follows_flagsArg ..) fun _ => ?_
    exact .andThen (follows_compile ..) fun _ => .of_pure _

end RegexFn

namespace StringFn

@[simp] theorem follows_padding (function : String) (args : List Value) :
    H.Follows (padding function args loc) := by
  refine .andThen (Argument.follows_text ..) fun s =>
    .andThen (Argument.follows_number ..) fun x => ?_
  have hfill (pad : String) : H.Follows (if Binary.cutToCount x ≤ s.length || pad.isEmpty then
        pure (s, "")
      else if maxCollectionLength < Binary.cutToCount x then
        fail (.resultTooLarge function
          (Layout.plain.write (Binary.ofNat (Binary.cutToCount x)))) loc
      else pure (s, String.ofList (cycle pad.toList [] (Binary.cutToCount x - s.length)))) := by
    simp
  dsimp only
  split
  · exact .andThen (Argument.follows_text ..) hfill
  · exact .andThen (.of_pure " ") hfill

@[simp] theorem follows_chars (function : String) (args : List Value) (position : Nat) :
    H.Follows (chars function args position loc) := by
  simp [chars]

@[simp] theorem follows_count (function : String) (args : List Value) (position fallback : Nat) :
    H.Follows (count function args position fallback loc) := by
  refine .andThen (Argument.follows_optionalNumber ..) fun x => ?_
  split <;> simp

@[simp] theorem follows_separator (args : List Value) :
    H.Follows (separator args loc) := by
  unfold separator
  split <;> simp

@[simp] theorem follows_pattern (function : String) (args : List Value) :
    H.Follows (pattern function args loc) := by
  unfold pattern
  split <;> simp

@[simp] theorem follows_replaceWith (function : String)
    (replaced : String → String → String → String) (args : List Value) :
    H.Follows (replaceWith function replaced args loc) := by
  refine .andThen (Argument.follows_text ..) fun s => .andThen (follows_pattern ..) fun p => ?_
  simp

@[simp] theorem follows_repetition (args : List Value) :
    H.Follows (repetition args loc) := by
  refine .andThen (Argument.follows_text ..) fun s =>
    .andThen (Argument.follows_number ..) fun x => ?_
  exact .ite (by simp) (.ite (by simp) (by simp))

/-- Two texts and an optional position, from which a result is computed. -/
private theorem follows_search (function : String) (args : List Value) (fallback : List Char → Nat)
    {f : List Char → List Char → Nat → Eval Value}
    (hf : ∀ s search i, H.Follows (f s search i)) :
    H.Follows (do
      let s ← chars function args 1 loc
      let search ← chars function args 2 loc
      let i ← count function args 3 (fallback s) loc
      f s search i) :=
  .andThen (follows_chars ..) fun s => .andThen (follows_chars ..) fun search =>
    .andThen (follows_count ..) fun i => hf s search i

theorem follows_run (f : StringFn) (args : List Value) :
    H.Follows (f.run args loc) := by
  cases f with
  | startsWith | indexOf => exact follows_search _ _ (fun _ => 0) fun _ _ _ => .of_pure _
  | endsWith => exact follows_search _ _ List.length fun _ _ _ => .of_pure _
  | contains =>
    refine .andThen (follows_chars ..) fun s => .andThen (follows_chars ..) fun search => ?_
    exact .ite (by simp) (by simp)
  | lastIndexOf =>
    refine .andThen (follows_chars ..) fun s => .andThen (follows_chars ..) fun search => ?_
    refine .andThen (Argument.follows_optionalNumber ..) fun last => ?_
    split <;> simp
  | substring =>
    refine .andThen (follows_chars ..) fun s =>
      .andThen (Argument.follows_number ..) fun first => ?_
    simp
  | slice =>
    refine .andThen (follows_chars ..) fun s =>
      .andThen (Argument.follows_number ..) fun first => ?_
    simp
  | split =>
    refine .andThen (Argument.follows_text ..) fun s =>
      .andThen (follows_separator ..) fun sep => ?_
    simp
  | charAt => exact .andThen (follows_chars ..) fun s => by simp
  | _ => simp [run, transformation?]

end StringFn

/-! ### All functions -/

namespace Builtin

/-- The functions that call back into the program. -/
def callsBack : Builtin → Bool
  | .array f => f.callsBack
  | .object .mapValues | .assert .throws => true
  | _ => false

/-- The functions that write into a container. -/
def writes : Builtin → Bool
  | .core f => f.writes
  | _ => false

theorem follows_run (ev : Evaluator) {b : Builtin} (hb : b.callsBack = false)
    (hw : b.writes = false) (args : List Value) : H.Follows (b.run ev args loc) := by
  cases b with
  | core f => exact f.follows_run hw args
  | array f => exact f.follows_run ev hb args
  | assert f => exact f.follows_run ev (by rintro rfl; cases hb) args
  | object f => exact f.follows_run ev (by rintro rfl; cases hb) args
  | datetime f | env f | fs f | http f | json f | math f | path f | regex f | string f =>
    exact f.follows_run args

/-- **Habits.** A function that neither calls back nor writes has every habit, whatever its
arguments are. -/
theorem follows_call (ev : Evaluator) {b : Builtin} (hb : b.callsBack = false)
    (hw : b.writes = false) (args : List Value) : H.Follows (b.call ev args loc) :=
  .ite (follows_run ev hb hw args) (.of_fail _)

end Builtin

end ScriptLang
