import Mathlib
import ScriptLang.Library.Dispatch
import ScriptLang.Eval.Run
import ScriptLang.Proofs.Discipline

/-!
# Functions of arrays with a callback

The library goes through an array with a callback that may run any code of the program. As long as
the calls leave the array as it was, this comes to the function of lists of the same name: in order,
with one call for each element that is reached, and nothing after an error.

* `Machine.Keeps` says that an array is the same after a computation for some number of elements,
  whatever the number is.
* `ArrayFn.visited`, `ArrayFn.hit` and `ArrayFn.folded` are the calls for one element, and
  `ArrayFn.handed` is what the callback gets of the arguments.
* `ArrayFn.walk` goes through a list of elements with their indices, up to a hit. The library looks
  up each next element in the live array instead, which is the same if the array is kept
  (`visitFrom_eq_walk`, `foldFrom_eq_foldlM`).
* `array_callbacks_agree_with_lists` is the main statement. The functions of lists are those for
  computations, so it is about the calls, their order and their errors as well as about results.
-/

namespace ScriptLang

namespace Eval

variable {α β : Type}

/-- Computations follow the laws of monads. -/
theorem lawfulMonad : LawfulMonad Eval :=
  .mk' Eval
    (fun x => by
      funext m
      change Eval.andThen x _ m = x m
      unfold Eval.andThen
      cases x m <;> rfl)
    (fun _ _ => rfl)
    (fun x f g => andThen_assoc x f g)

/-- What follows two computations that end alike. -/
theorem bind_congr_at {x y : Eval α} {f : α → Eval β} {m : Machine} (h : x m = y m) :
    (x >>= f) m = (y >>= f) m := by
  change Eval.andThen x f m = Eval.andThen y f m
  unfold Eval.andThen
  rw [h]

/-- What follows one computation needs to be the same for the results that it has. -/
theorem bind_congr_ok {x : Eval α} {f g : α → Eval β} {m : Machine}
    (h : ∀ a n, x m = .ok a n → f a n = g a n) : (x >>= f) m = (x >>= g) m := by
  change Eval.andThen x f m = Eval.andThen x g m
  unfold Eval.andThen
  cases hx : x m with
  | ok a n => exact h a n hx
  | error d n => rfl
  | halt reason n => rfl

end Eval

/-- **Keeps.** However many elements the computation is made for, the array is the same after it as
it was before. -/
def Machine.Keeps {α : Type} (m : Machine) (r : Ref) (made : Nat → Eval α) : Prop :=
  ∀ k a n, made k m = .ok a n → n.heap.array r = m.heap.array r

namespace Machine.Keeps

variable {α β : Type} {m n : Machine} {r : Ref} {made : Nat → Eval α}

theorem map (h : m.Keeps r made) (f : α → β) : m.Keeps r fun k => f <$> made k := by
  intro k b n hb
  obtain ⟨a, n', ha, hn⟩ := Eval.exists_ok_of_bind hb
  cases hn
  exact h k a _ ha

theorem of_machine (h : ∀ k, (made k m).machine.heap.array r = m.heap.array r) :
    m.Keeps r made := by
  intro k a n hn
  have hk := h k
  rw [hn] at hk
  exact hk

/-- What is made for one element leads to where the others are gone through. -/
theorem after {rest : Nat → Eval α} {a : α} (h : m.Keeps r made)
    (hmade : ∀ k, made (k + 1) m = rest k n) (hrest : rest 0 n = .ok a n) :
    n.heap.array r = m.heap.array r ∧ n.Keeps r rest := by
  have hsame := h 1 a n ((hmade 0).trans hrest)
  exact ⟨hsame, fun k b n' hb => (h (k + 1) b n' ((hmade k).trans hb)).trans hsame.symm⟩

end Machine.Keeps

namespace ArrayFn

open Eval Argument

variable {σ τ : Type} {ev : Evaluator} {r : Ref} {f : Callback} {loc : Location}
  {items : List Value} {bound i : Nat} {m : Machine}

/-! ### Calls -/

/-- **Handed.** What a callback gets of some arguments: as many as it declares parameters, or all of
them if it has a rest parameter. -/
def handed (fn : FunctionDef) (args : List Value) : List Value :=
  if fn.rest?.isSome then args else args.take fn.params.length

/-- The call of the callback for an element. -/
def visited (ev : Evaluator) (r : Ref) (f : Callback) (loc : Location) (p : Value × Nat) :
    Eval Value :=
  ev.call f.value (handed f.fn [p.1, .ofNat p.2, .array r]) loc f.fn.displayName

/-- Whether the callback gives a truthy value for an element. -/
def hit (ev : Evaluator) (r : Ref) (f : Callback) (loc : Location) (p : Value × Nat) : Eval Bool :=
  Value.truthy <$> visited ev r f loc p

/-- The call of the callback for what was made so far and an element. -/
def folded (ev : Evaluator) (r : Ref) (f : Callback) (loc : Location) (acc : Value)
    (p : Value × Nat) : Eval Value :=
  ev.call f.value (handed f.fn [acc, p.1, .ofNat p.2, .array r]) loc f.fn.displayName

/-! ### The live array -/

theorem element?_of_drop {item : Value} (h : (m.heap.array r).toList.drop i = item :: items) :
    element? r i m = .ok (some item) m ∧ (m.heap.array r).toList.drop (i + 1) = items := by
  have hlt : i < (m.heap.array r).toList.length := by
    by_contra hge
    rw [List.drop_eq_nil_of_le (Nat.le_of_not_lt hge)] at h
    cases h
  rw [List.drop_eq_getElem_cons hlt, List.cons.injEq] at h
  refine ⟨?_, h.2⟩
  change Outcome.ok (m.heap.array r)[i]? m = _
  rw [← Array.getElem?_toList, List.getElem?_eq_getElem hlt, h.1]

theorem element?_of_drop_nil (h : (m.heap.array r).toList.drop i = []) :
    element? r i m = .ok none m := by
  change Outcome.ok (m.heap.array r)[i]? m = _
  rw [← Array.getElem?_toList, List.getElem?_eq_none (List.drop_eq_nil_iff.mp h)]

/-- **Walk.** Goes through elements with their indices. A step either goes on or ends the walk. -/
def walk (step : σ → Value × Nat → Eval (σ ⊕ τ)) : List (Value × Nat) → σ → Eval (σ ⊕ τ)
  | [], acc => return .inl acc
  | p :: ps, acc => do
    match ← step acc p with
    | .inl acc => walk step ps acc
    | .inr found => return .inr found

/-- What visiting does at an element. -/
def visitStep (ev : Evaluator) (r : Ref) (f : Callback) (loc : Location)
    (visit : σ → Nat → Value → Value → σ ⊕ τ) (acc : σ) (p : Value × Nat) : Eval (σ ⊕ τ) := do
  let v ← visited ev r f loc p
  return visit acc p.2 p.1 v

theorem walk_visitStep (visit : σ → Nat → Value → Value → σ ⊕ τ) (acc : σ) (p : Value × Nat)
    (ps : List (Value × Nat)) :
    walk (visitStep ev r f loc visit) (p :: ps) acc =
      visited ev r f loc p >>= fun v =>
        match visit acc p.2 p.1 v with
        | .inl acc => walk (visitStep ev r f loc visit) ps acc
        | .inr found => return .inr found :=
  andThen_assoc ..

/-- An array that is kept is visited as its elements are. -/
theorem visitFrom_eq_walk (visit : σ → Nat → Value → Value → σ ⊕ τ) {acc : σ}
    (hitems : (m.heap.array r).toList.drop i = items) (hbound : items.length < bound)
    (hkeeps : m.Keeps r fun k =>
      walk (visitStep ev r f loc visit) ((items.zipIdx i).take k) acc) :
    visitFrom ev r (.array r) f loc visit bound i acc m =
      walk (visitStep ev r f loc visit) (items.zipIdx i) acc m := by
  induction items generalizing bound i acc m with
  | nil =>
    obtain ⟨bound, rfl⟩ := Nat.exists_eq_succ_of_ne_zero (Nat.ne_zero_of_lt hbound)
    exact bind_of_ok (element?_of_drop_nil hitems)
  | cons item rest ih =>
    obtain ⟨bound, rfl⟩ := Nat.exists_eq_succ_of_ne_zero (Nat.ne_zero_of_lt hbound)
    obtain ⟨hitem, hrest⟩ := element?_of_drop hitems
    rw [List.zipIdx_cons] at hkeeps ⊢
    rw [walk_visitStep]
    refine (bind_of_ok hitem).trans (bind_congr_ok fun v n hcall => ?_)
    change visited ev r f loc (item, i) m = .ok v n at hcall
    cases hvisit : visit acc i item v with
    | inr found => rfl
    | inl acc' =>
      -- The call leaves a state of its own, in which the array is the same: there the rest is
      -- visited by induction.
      have hstep : visitStep ev r f loc visit acc (item, i) m = .ok (.inl acc') n := by
        rw [← hvisit]
        exact bind_of_ok hcall
      obtain ⟨hsame, hkept⟩ := hkeeps.after (fun k => bind_of_ok hstep) rfl
      rw [← hsame] at hrest
      exact ih hrest (Nat.lt_of_succ_lt_succ hbound) hkept

/-- An array that is kept is folded as its elements are. -/
theorem foldFrom_eq_foldlM {acc : Value} (hitems : (m.heap.array r).toList.drop i = items)
    (hbound : items.length < bound)
    (hkeeps : m.Keeps r fun k =>
      ((items.zipIdx i).take k).foldlM (folded ev r f loc) acc) :
    foldFrom ev r (.array r) f loc bound i acc m =
      (items.zipIdx i).foldlM (folded ev r f loc) acc m := by
  induction items generalizing bound i acc m with
  | nil =>
    obtain ⟨bound, rfl⟩ := Nat.exists_eq_succ_of_ne_zero (Nat.ne_zero_of_lt hbound)
    exact bind_of_ok (element?_of_drop_nil hitems)
  | cons item rest ih =>
    obtain ⟨bound, rfl⟩ := Nat.exists_eq_succ_of_ne_zero (Nat.ne_zero_of_lt hbound)
    obtain ⟨hitem, hrest⟩ := element?_of_drop hitems
    rw [List.zipIdx_cons] at hkeeps ⊢
    rw [List.foldlM_cons]
    refine (bind_of_ok hitem).trans (bind_congr_ok fun v n hcall => ?_)
    -- After the call the array is the same, so its elements from here on are still `rest`.
    obtain ⟨hsame, hkept⟩ := hkeeps.after (fun k => bind_of_ok hcall) rfl
    rw [← hsame] at hrest
    exact ih hrest (Nat.lt_of_succ_lt_succ hbound) hkept

/-! ### Walks and functions of lists -/

/-- Results are gathered in order. -/
theorem walk_map (ps : List (Value × Nat)) (done : Array Value) :
    walk (τ := Empty) (visitStep ev r f loc fun acc _ _ v => .inl (acc.push v)) ps done =
      (fun vs => .inl (done ++ vs.toArray)) <$> ps.mapM (visited ev r f loc) := by
  have := lawfulMonad
  induction ps generalizing done with
  | nil => simp [walk]
  | cons p ps ih => simp [walk, visitStep, ih]

/-- What passes the test is gathered in order. The list has it from its last element. -/
theorem walk_filterAuxM (ps done : List (Value × Nat)) :
    walk (τ := Empty) (visitStep ev r f loc fun acc _ item v =>
        .inl (if v.truthy then acc.push item else acc)) ps (done.reverse.map (·.1)).toArray =
      (fun ps => .inl (ps.reverse.map (·.1)).toArray) <$>
        ps.filterAuxM (hit ev r f loc) done := by
  have := lawfulMonad
  induction ps generalizing done with
  | nil => simp [walk, List.filterAuxM]
  | cons p ps ih =>
    simp only [walk, visitStep, List.filterAuxM, hit, bind_assoc, pure_bind, map_bind,
      bind_map_left]
    refine bind_congr fun v => ?_
    cases hv : v.truthy with
    | true => simpa using ih (p :: done)
    | false => simpa using ih done

theorem walk_filter (ps : List (Value × Nat)) :
    walk (τ := Empty) (visitStep ev r f loc fun acc _ item v =>
        .inl (if v.truthy then acc.push item else acc)) ps #[] =
      (fun ps => .inl (ps.map (·.1)).toArray) <$> ps.filterM (hit ev r f loc) := by
  have := lawfulMonad
  refine (walk_filterAuxM ps []).trans ?_
  simp [List.filterM]

/-- A test ends the walk where it holds first. -/
theorem walk_find (g : Value → Nat → τ) (ps : List (Value × Nat)) :
    walk (visitStep ev r f loc fun _ i item v => if v.truthy then .inr (g item i) else .inl ())
        ps () =
      (fun found => found.elim (.inl ()) fun p => .inr (g p.1 p.2)) <$>
        ps.findM? (hit ev r f loc) := by
  have := lawfulMonad
  induction ps with
  | nil => simp [walk, List.findM?]
  | cons p ps ih =>
    simp only [walk, visitStep, List.findM?, hit, bind_assoc, pure_bind, map_bind, bind_map_left]
    refine bind_congr fun v => ?_
    cases hv : v.truthy with
    | true => simp
    | false => exact ih

/-! ### The functions -/

variable {identity : Nat} {fn : FunctionDef} {home : ScopeId}

/-- What follows a walk through an array that is kept follows what the walk comes to for lists. -/
theorem visitAll_bind {α β : Type} {function : String} {visit : σ → Nat → Value → Value → σ ⊕ τ}
    {start : σ} {made : List (Value × Nat) → Eval α} {g : α → σ ⊕ τ}
    (hroom : (m.heap.array r).size < ev.bound)
    (hwalk : ∀ ps, walk (visitStep ev r ⟨.closure identity fn home, fn⟩ loc visit) ps start =
      g <$> made ps)
    (hkeeps : m.Keeps r fun k => made ((m.heap.array r).toList.zipIdx.take k))
    (next : σ ⊕ τ → Eval β) :
    (visitAll ev function [.array r, .closure identity fn home] loc start visit >>= next) m =
      (made (m.heap.array r).toList.zipIdx >>= fun a => next (g a)) m := by
  have := lawfulMonad
  -- The walk ends in the same states as the computation that it is made from.
  have hkept := hkeeps.map g
  simp only [← hwalk] at hkept
  have hall : visitAll ev function [.array r, .closure identity fn home] loc start visit m =
      (g <$> made (m.heap.array r).toList.zipIdx) m := by
    rw [← hwalk]
    exact visitFrom_eq_walk visit List.drop_zero (by simpa using hroom) hkept
  rw [bind_congr_at hall, bind_map_left]

/-- What follows a search in an array that is kept. -/
theorem visitAll_find {β : Type} {function : String} (g : Value → Nat → τ)
    {next : Unit ⊕ τ → Eval β} {found : Option (Value × Nat) → β}
    (hroom : (m.heap.array r).size < ev.bound)
    (hkeeps : m.Keeps r fun k => ((m.heap.array r).toList.zipIdx.take k).findM?
      (hit ev r ⟨.closure identity fn home, fn⟩ loc))
    (hnext : ∀ p?, next (p?.elim (.inl ()) fun p => .inr (g p.1 p.2)) = pure (found p?)) :
    (visitAll ev function [.array r, .closure identity fn home] loc ()
        (fun _ i item v => if v.truthy then .inr (g item i) else .inl ()) >>= next) m =
      (found <$> (m.heap.array r).toList.zipIdx.findM?
        (hit ev r ⟨.closure identity fn home, fn⟩ loc)) m := by
  have := lawfulMonad
  rw [visitAll_bind hroom (walk_find g) hkeeps next, map_eq_pure_bind]
  exact congrFun (bind_congr hnext) m

/-- A fold without a first value looks it up in the array. -/
theorem run_reduce : run ev .reduce [.array r, .closure identity fn home] loc m =
    (element? r 0 >>= fun
      | some start => foldFrom ev r (.array r) ⟨.closure identity fn home, fn⟩ loc ev.bound 1 start
      | none => refuse ArrayReport.reduceEmpty loc) m := rfl

end ArrayFn

open Eval ArrayFn

/-- **Functions of arrays with a callback agree with those of lists.** Let `xs` be the elements with
their indices. As long as the array is the same after each call, `map`, `filter`, `find`,
`find_index` and `reduce` are `mapM`, `filterM`, `findM?` and `foldlM` of the calls. So the elements
are visited in order, with one call for each. No call follows a first hit, nor an error, with which
the function fails. A fold without a first value begins with the first element and calls for the
others; it fails if there is none. -/
theorem array_callbacks_agree_with_lists (ev : Evaluator) (r : Ref) (identity : Nat)
    (fn : FunctionDef) (home : ScopeId) (loc : Location) (m : Machine)
    (hroom : (m.heap.array r).size < ev.bound) :
    let c : Value := .closure identity fn home
    let f : Argument.Callback := ⟨c, fn⟩
    let xs := (m.heap.array r).toList.zipIdx
    ((m.Keeps r fun k => (xs.take k).mapM (visited ev r f loc)) →
      (Builtin.array .map).call ev [.array r, c] loc m =
        (xs.mapM (visited ev r f loc) >>= newList) m) ∧
    ((m.Keeps r fun k => (xs.take k).filterM (hit ev r f loc)) →
      (Builtin.array .filter).call ev [.array r, c] loc m =
        (xs.filterM (hit ev r f loc) >>= fun ps => newList (ps.map (·.1))) m) ∧
    ((m.Keeps r fun k => (xs.take k).findM? (hit ev r f loc)) →
      (Builtin.array .find).call ev [.array r, c] loc m =
        ((fun p? => .ofOption (p?.map (·.1))) <$> xs.findM? (hit ev r f loc)) m ∧
      (Builtin.array .findIndex).call ev [.array r, c] loc m =
        ((fun p? => indexOrMinusOne (p?.map (·.2))) <$> xs.findM? (hit ev r f loc)) m) ∧
    (∀ start, (m.Keeps r fun k => (xs.take k).foldlM (folded ev r f loc) start) →
      (Builtin.array .reduce).call ev [.array r, c, start] loc m =
        xs.foldlM (folded ev r f loc) start m) ∧
    (∀ first rest, xs = first :: rest →
      (m.Keeps r fun k => (rest.take k).foldlM (folded ev r f loc) first.1) →
      (Builtin.array .reduce).call ev [.array r, c] loc m =
        rest.foldlM (folded ev r f loc) first.1 m) ∧
    (xs = [] → ∃ d, (Builtin.array .reduce).call ev [.array r, c] loc m = .error d m ∧
      d.code = "ARG001") := by
  intro c f xs
  have := lawfulMonad
  have hlist : (m.heap.array r).toList.length < ev.bound := by simpa using hroom
  refine ⟨fun hkeeps => ?map, fun hkeeps => ?filter, fun hkeeps => ⟨?find, ?findIndex⟩,
    fun start hkeeps => ?reduceFrom, fun first rest hxs hkeeps => ?reduce, fun hxs => ?nothing⟩
  all_goals rw [Builtin.call_of_accepts rfl]
  case map =>
    refine (visitAll_bind hroom (walk_map · #[]) hkeeps _).trans ?_
    simp only [Array.empty_append]
    rfl
  case filter => exact visitAll_bind hroom walk_filter hkeeps _
  case find =>
    refine visitAll_find (fun item _ => item) hroom hkeeps fun p? => ?_
    cases p? <;> rfl
  case findIndex =>
    refine visitAll_find (fun _ i => i) hroom hkeeps fun p? => ?_
    cases p? <;> rfl
  case reduceFrom => exact foldFrom_eq_foldlM List.drop_zero hlist hkeeps
  case reduce =>
    -- Without a first value the fold begins at the second element, from the first one.
    cases hitems : (m.heap.array r).toList with
    | nil =>
      rw [show xs = [] from congrArg List.zipIdx hitems] at hxs
      cases hxs
    | cons item items =>
      rw [show xs = (item, 0) :: items.zipIdx 1 from congrArg List.zipIdx hitems] at hxs
      cases hxs
      obtain ⟨hitem, hdrop⟩ := element?_of_drop (i := 0) hitems
      rw [hitems] at hlist
      refine Eq.trans ?_ (foldFrom_eq_foldlM hdrop (Nat.lt_of_succ_lt hlist) hkeeps)
      exact run_reduce.trans (bind_of_ok hitem)
  case nothing =>
    have hnone : (m.heap.array r).toList.drop 0 = [] := List.zipIdx_eq_nil_iff.mp hxs
    exact ⟨_, run_reduce.trans (bind_of_ok (element?_of_drop_nil hnone)), rfl⟩

/-- `function f(x)`, which returns `x`. -/
def givesFirst : FunctionDef :=
  .mk (some "f") [.mk "x" none] none [.giveBack default (some (.ident default "x"))] default

/-- The function as a callback. -/
def firstGiver : Argument.Callback := ⟨.closure 0 givesFirst Scopes.root, givesFirst⟩

/-- A machine with an array of one element, which is true. -/
def Machine.ofTrue : Machine :=
  { context := { calls := .ofLimit none }, heap := { arrays := #[#[.bool true]] } }

/-- Whatever is made for elements of the one array is made for none or for the only one. -/
theorem Machine.keeps_ofTrue {α : Type} (made : List (Value × Nat) → Eval α)
    (hnone : (made [] .ofTrue).machine.heap.array 0 = #[.bool true])
    (hone : (made [(.bool true, 0)] .ofTrue).machine.heap.array 0 = #[.bool true]) :
    Machine.ofTrue.Keeps 0 fun k => made ((Machine.ofTrue.heap.array 0).toList.zipIdx.take k) :=
  .of_machine fun
    | 0 => hnone
    | k + 1 => by
      rw [List.take_of_length_le (Nat.le_add_left 1 k)]
      exact hone

/-- With a function that returns what it is given first, the element is found. -/
theorem array_callbacks_agree_with_lists_first :
    let ev := Evaluator.ofBound 9
    let m := Machine.ofTrue
    let f := firstGiver
    let xs := (m.heap.array 0).toList.zipIdx
    (m.heap.array 0).size < ev.bound ∧
    (m.Keeps 0 fun k => (xs.take k).mapM (visited ev 0 f default)) ∧
    (m.Keeps 0 fun k => (xs.take k).filterM (hit ev 0 f default)) ∧
    (m.Keeps 0 fun k => (xs.take k).findM? (hit ev 0 f default)) ∧
    (m.Keeps 0 fun k => (xs.take k).foldlM (folded ev 0 f default) .null) ∧
    (Builtin.array .map).call ev [.array 0, f.value] default m =
      (xs.mapM (visited ev 0 f default) >>= newList) m ∧
    (Builtin.array .filter).call ev [.array 0, f.value] default m =
      (xs.filterM (hit ev 0 f default) >>= fun ps => newList (ps.map (·.1))) m ∧
    (∃ n, (Builtin.array .find).call ev [.array 0, f.value] default m = .ok (.bool true) n) ∧
    ∃ n, (Builtin.array .reduce).call ev [.array 0, f.value, .null] default m = .ok .null n := by
  intro ev m f xs
  have hroom : (m.heap.array 0).size < ev.bound := by decide
  have hmap := Machine.keeps_ofTrue (·.mapM (visited (.ofBound 9) 0 firstGiver default))
    (by cbv) (by cbv)
  have hfilter := Machine.keeps_ofTrue (·.filterM (hit (.ofBound 9) 0 firstGiver default))
    (by cbv) (by cbv)
  have hfind := Machine.keeps_ofTrue (·.findM? (hit (.ofBound 9) 0 firstGiver default))
    (by cbv) (by cbv)
  have hfold := Machine.keeps_ofTrue (·.foldlM (folded (.ofBound 9) 0 firstGiver default) .null)
    (by cbv) (by cbv)
  obtain ⟨map, filter, find, fold, -, -⟩ :=
    array_callbacks_agree_with_lists ev 0 0 givesFirst Scopes.root default m hroom
  have hfound : (((fun p? => Value.ofOption (p?.map (·.1))) <$>
      [((Value.bool true), 0)].findM? (hit (.ofBound 9) 0 firstGiver default)) .ofTrue).result? =
        some (.bool true) := by cbv
  have hleft : ([((Value.bool true), 0)].foldlM (folded (.ofBound 9) 0 firstGiver default) .null
      .ofTrue).result? = some .null := by cbv
  exact ⟨hroom, hmap, hfilter, hfind, hfold, map hmap, filter hfilter,
    ⟨_, (find hfind).1.trans (Outcome.eq_of_result? hfound)⟩,
    _, (fold .null hfold).trans (Outcome.eq_of_result? hleft)⟩

end ScriptLang
