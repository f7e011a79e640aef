import ScriptLang.Proofs.AssociationLists
import ScriptLang.Proofs.SparedContainers

/-!
# Objects made of the entries of others

The library merges objects, picks entries out of an object or leaves some out, lists the entries of
an object as pairs and makes an object of pairs. The language also spreads objects in a literal. All
of these insert entries one after the other into an empty map, and so they follow one rule: a key
stays at its first place and takes its last value (`OrderedMap.keys_ofList`,
`OrderedMap.get?_ofList`).

* `Heap.entriesOf` are the entries of some objects in a row, and `Heap.Merges` says what merging
  makes of them. Merging goes by keys and values alone, so objects that were merged before may stand
  for what they were made of (`OrderedMap.toList_ofList_splice`).
* `Eval.Denotes` says that expressions have given objects as values. A literal reads each object
  when its expression is computed, and `merge` reads them all in the end, so this includes that the
  objects have not changed until then.
* `Heap.IsPairs` is a list of pairs, as `entries` makes it.
* `OrderedMap.Parts` says what `pick` and `omit` make of an object.

The main statements are `merging_agrees_with_spreading` and `entries_rebuild_objects`.
-/

namespace ScriptLang

open Eval

/-! ### Entries that are put one after the other -/

namespace Entries

/-- Repetitions may be dropped inside of a list before they are dropped in all of it. -/
theorem eraseDups_splice (before keys after : List String) :
    (before ++ keys.eraseDups ++ after).eraseDups = (before ++ keys ++ after).eraseDups := by
  induction after using List.reverseRecOn with
  | append_singleton after key ih =>
    rw [← List.append_assoc, ← List.append_assoc, eraseDups_concat, eraseDups_concat, ih]
    simp only [List.mem_append, List.mem_eraseDups]
  | nil =>
    rw [List.append_nil, List.append_nil]
    induction keys using List.reverseRecOn with
    | nil => rfl
    | append_singleton keys key ih =>
      rw [eraseDups_concat, ← List.append_assoc before keys, eraseDups_concat, ← ih]
      -- A key that is dropped inside is found in the whole list, too.
      by_cases hkey : key ∈ keys
      · rw [if_pos hkey, if_pos (List.mem_append_right before hkey)]
      · rw [if_neg hkey, ← List.append_assoc, eraseDups_concat]
        simp only [List.mem_append, List.mem_eraseDups]

variable {α : Type}

/-- Where no key has two entries, the last one of a key is the first one. -/
theorem get?_reverse {es : List (String × α)} (h : (es.map Prod.fst).Nodup) (key : String) :
    get? key es.reverse = get? key es := by
  have hlist := OrderedMap.toList_ofList_of_nodup h
  calc get? key es.reverse
    _ = (OrderedMap.ofList es).get? key := (OrderedMap.get?_ofList es key).symm
    _ = get? key (OrderedMap.ofList es).toList :=
      ((OrderedMap.ofList es).get?_entries key).symm
    _ = get? key es := by rw [hlist]

end Entries

/-- What a map holds is what is made of its entries. -/
theorem OrderedMap.toList_ofList_toList {α : Type} (m : OrderedMap α) :
    (ofList m.toList).toList = m.toList :=
  toList_ofList_of_nodup m.nodup_keys

/-- Entries in a row may be put into a map of their own first. -/
theorem OrderedMap.toList_ofList_splice {α : Type} (before entries after : List (String × α)) :
    (ofList (before ++ (ofList entries).toList ++ after)).toList =
      (ofList (before ++ entries ++ after)).toList := by
  have hkeys : (ofList entries).toList.map Prod.fst = (entries.map Prod.fst).eraseDups :=
    keys_ofList entries
  have hlast (key : String) :
      Entries.get? key (ofList entries).toList.reverse = Entries.get? key entries.reverse := by
    rw [Entries.get?_reverse (nodup_keys _), get?_entries, get?_ofList]
  rw [toList_eq (ofList (before ++ (ofList entries).toList ++ after)),
    toList_eq (ofList (before ++ entries ++ after))]
  simp only [keys_ofList, get?_ofList, List.map_append, List.reverse_append, Entries.get?_append,
    hkeys, hlast, Entries.eraseDups_splice]

/-! ### Merging -/

namespace Heap

/-- The entries of some objects, one object after the other. -/
def entriesOf (h : Heap) (rs : List Ref) : List (String × Value) :=
  rs.flatMap fun r => (h.object r).toList

theorem entriesOf_cons (h : Heap) (r : Ref) (rs : List Ref) :
    h.entriesOf (r :: rs) = (h.object r).toList ++ h.entriesOf rs :=
  List.flatMap_cons

theorem entriesOf_singleton (h : Heap) (r : Ref) : h.entriesOf [r] = (h.object r).toList :=
  List.flatMap_singleton ..

theorem entriesOf_append (h : Heap) (rs ss : List Ref) :
    h.entriesOf (rs ++ ss) = h.entriesOf rs ++ h.entriesOf ss :=
  List.flatMap_append

/-- **Merges.** Each key of the objects is at its first place, and has the value of the last object
that has it. -/
structure Merges (h : Heap) (rs : List Ref) (es : List (String × Value)) : Prop where
  keys : es.map Prod.fst = (rs.flatMap fun r => (h.object r).keys).eraseDups
  last : ∀ key v, (key, v) ∈ es → ∃ before r after, rs = before ++ r :: after ∧
    (h.object r).get? key = some v ∧ ∀ s ∈ after, (h.object s).get? key = none

variable {h : Heap} {rs : List Ref} {key : String} {v : Value}

/-- The last entry of a key is in the last object that has it. By induction from the last object. -/
theorem exists_last (hv : Entries.get? key (h.entriesOf rs).reverse = some v) :
    ∃ before r after, rs = before ++ r :: after ∧ (h.object r).get? key = some v ∧
      ∀ s ∈ after, (h.object s).get? key = none := by
  induction rs using List.reverseRecOn with
  | nil => cases hv
  | append_singleton rs r ih =>
    have hlast : Entries.get? key (h.object r).toList.reverse = (h.object r).get? key := by
      rw [Entries.get?_reverse (OrderedMap.nodup_keys _), OrderedMap.get?_entries]
    rw [entriesOf_append, entriesOf_singleton, List.reverse_append, Entries.get?_append,
      hlast] at hv
    cases hfound : (h.object r).get? key with
    | some w =>
      -- The last object has the key.
      rw [hfound, Option.some_or] at hv
      exact ⟨rs, r, [], rfl, hfound.trans hv, fun s hs => absurd hs List.not_mem_nil⟩
    | none =>
      -- It is found in one of the others, or not at all.
      rw [hfound, Option.none_or] at hv
      obtain ⟨before, s, after, rfl, hs, hafter⟩ := ih hv
      refine ⟨before, s, after ++ [r], by simp, hs, fun t ht => ?_⟩
      rcases List.mem_append.mp ht with ht | ht
      · exact hafter t ht
      · rw [List.mem_singleton.mp ht]
        exact hfound

theorem merges_ofList (h : Heap) (rs : List Ref) :
    h.Merges rs (OrderedMap.ofList (h.entriesOf rs)).toList where
  keys := by
    change (OrderedMap.ofList (h.entriesOf rs)).keys = _
    rw [OrderedMap.keys_ofList, entriesOf, List.map_flatMap]
    rfl
  last key v hv := by
    rw [← OrderedMap.get?_eq_some_iff, OrderedMap.get?_ofList] at hv
    exact exists_last hv

end Heap

namespace ObjectFn

variable (ev : Evaluator) (loc : Location) (m : Machine)

theorem mergeFrom_objects (rs : List Ref) (position : Nat) (done : OrderedMap Value) :
    mergeFrom loc position (rs.map .object) done m =
      .ok (done.insertAll (m.heap.entriesOf rs)) m := by
  induction rs generalizing position done with
  | nil => rfl
  | cons r rs ih =>
    change mergeFrom loc (position + 1) (rs.map .object)
      (done.insertAll (m.heap.object r).toList) m = _
    rw [ih, Heap.entriesOf_cons, OrderedMap.insertAll_append]

theorem call_merge (rs : List Ref) : (Builtin.object .merge).call ev (rs.map .object) loc m =
    newObject (.ofList (m.heap.entriesOf rs)) m := by
  have haccepts : (Builtin.object .merge).arity.accepts (rs.map Value.object).length = true :=
    (Arity.accepts_atLeast 0 _).mpr (Nat.zero_le _)
  rw [Builtin.call_of_accepts haccepts]
  exact bind_of_ok (mergeFrom_objects loc m rs 1 .empty)

theorem creates_merge (rs : List Ref) :
    ((Builtin.object .merge).call ev (rs.map .object) loc).Creates m
      (Heap.IsObject (OrderedMap.ofList (m.heap.entriesOf rs)).toList) :=
  .of_eq (.of_newObject _ m) (call_merge ev loc m rs)

/-- **Merging what was merged** comes to merging all of it at once. -/
theorem creates_merge_merged (before inner after : List Ref)
    (hbefore : ∀ r ∈ before, r < m.heap.objects.size)
    (hafter : ∀ r ∈ after, r < m.heap.objects.size) :
    ((Builtin.object .merge).call ev (inner.map .object) loc >>= fun v =>
      (Builtin.object .merge).call ev (before.map .object ++ v :: after.map .object) loc).Creates m
      (Heap.IsObject (OrderedMap.ofList (m.heap.entriesOf (before ++ inner ++ after))).toList) := by
  refine (creates_merge ev loc m inner).bind ?_
  rintro _ m' hgrows ⟨s, rfl, hs⟩
  -- The object in between is new, so the ones beside it are as they were.
  have hkept (rs : List Ref) (hrs : ∀ r ∈ rs, r < m.heap.objects.size) :
      m'.heap.entriesOf rs = m.heap.entriesOf rs :=
    List.flatMap_congr fun r hr => congrArg OrderedMap.toList (hgrows.object r (hrs r hr))
  have hentries : m'.heap.entriesOf (before ++ s :: after) = m.heap.entriesOf before ++
      (OrderedMap.ofList (m.heap.entriesOf inner)).toList ++ m.heap.entriesOf after := by
    rw [Heap.entriesOf_append, Heap.entriesOf_cons, hs, hkept before hbefore, hkept after hafter,
      List.append_assoc]
  have hmerged := creates_merge ev loc m' (before ++ s :: after)
  rw [hentries, OrderedMap.toList_ofList_splice, List.map_append, List.map_cons] at hmerged
  rwa [Heap.entriesOf_append, Heap.entriesOf_append]

end ObjectFn

/-! ### Spreading -/

/-- **Denotes.** The expressions, computed one after the other, have these objects as values. When
the last one is computed, each object holds what it held when its own expression was. -/
inductive Eval.Denotes (ev : Evaluator) : Machine → List Expr → List Ref → Machine → Prop
  | nil (m : Machine) : Denotes ev m [] [] m
  | cons {m m' n : Machine} {e : Expr} {es : List Expr} {r : Ref} {rs : List Ref}
    (hvalue : ev.expr e m = .ok (.object r) m') (hrest : Denotes ev m' es rs n)
    (hkept : n.heap.object r = m'.heap.object r) : Denotes ev m (e :: es) (r :: rs) n

namespace Eval.Denotes

variable {ev : Evaluator} {m n : Machine} {es : List Expr} {rs : List Ref}

theorem entriesOnto_spreads (hes : Denotes ev m es rs n) (done : OrderedMap Value) :
    entriesOnto ev done (es.map .spread) m = .ok (done.insertAll (n.heap.entriesOf rs)) n := by
  induction hes generalizing done with
  | nil m => rfl
  | @cons m m' n e es r rs hvalue _ hkept ih =>
    refine (bind_of_ok hvalue).trans ?_
    change entriesOnto ev (done.insertAll (m'.heap.object r).toList) (es.map .spread) m' = _
    rw [ih, ← hkept, Heap.entriesOf_cons, OrderedMap.insertAll_append]

/-- A literal that spreads objects. -/
theorem expression_spreads (hes : Denotes ev m es rs n) (place : Location) :
    expression ev (.object place (es.map .spread)) m =
      newObject (.ofList (n.heap.entriesOf rs)) n :=
  bind_of_ok (hes.entriesOnto_spreads .empty)

end Eval.Denotes

open ObjectFn in
/-- **Merging agrees with spreading, and is associative.** Of any objects, `merge` makes a new one
with their keys at their first places, each with the value of the last object that has it. The
literal that spreads them is computed alike, down to the machine that it leaves. Three objects may
be merged in either order, or at once, and an empty object changes nothing. -/
theorem merging_agrees_with_spreading (ev : Evaluator) (loc : Location) (m : Machine) :
    let merge (vs : List Value) := (Builtin.object .merge).call ev vs loc
    (∀ rs : List Ref, ∃ es, m.heap.Merges rs es ∧
      (merge (rs.map .object)).Creates m (Heap.IsObject es)) ∧
    (∀ m₀ exprs rs place, Denotes ev m₀ exprs rs m →
      expression ev (.object place (exprs.map .spread)) m₀ = merge (rs.map .object) m) ∧
    (∀ a b c : Ref, m.heap.Has (.object a) → m.heap.Has (.object b) → m.heap.Has (.object c) →
      ∃ es, m.heap.Merges [a, b, c] es ∧
        (merge [.object a, .object b, .object c]).Creates m (Heap.IsObject es) ∧
        (merge [.object a, .object b] >>= fun ab => merge [ab, .object c]).Creates m
          (Heap.IsObject es) ∧
        (merge [.object b, .object c] >>= fun bc => merge [.object a, bc]).Creates m
          (Heap.IsObject es)) ∧
    ∀ a e : Ref, (m.heap.object e).toList = [] →
      (merge [.object a, .object e]).Creates m (Heap.IsObject (m.heap.object a).toList) ∧
      (merge [.object e, .object a]).Creates m (Heap.IsObject (m.heap.object a).toList) := by
  intro merge
  refine ⟨fun rs => ⟨_, m.heap.merges_ofList rs, creates_merge ev loc m rs⟩, ?spread, ?assoc,
    ?empty⟩
  case spread =>
    intro m₀ exprs rs place hexprs
    exact (hexprs.expression_spreads place).trans (call_merge ev loc m rs).symm
  case assoc =>
    intro a b c ha hb hc
    have hone (r : Ref) (hr : m.heap.Has (.object r)) : ∀ s ∈ [r], s < m.heap.objects.size :=
      fun s hs => List.mem_singleton.mp hs ▸ hr
    have hnone : ∀ s ∈ ([] : List Ref), s < m.heap.objects.size := nofun
    exact ⟨_, m.heap.merges_ofList [a, b, c], creates_merge ev loc m [a, b, c],
      creates_merge_merged ev loc m [] [a, b] [c] hnone (hone c hc),
      creates_merge_merged ev loc m [a] [b, c] [] (hone a ha) hnone⟩
  case empty =>
    intro a e he
    have hlast : m.heap.entriesOf [a, e] = (m.heap.object a).toList := by
      rw [Heap.entriesOf_cons, Heap.entriesOf_singleton, he, List.append_nil]
    have hfirst : m.heap.entriesOf [e, a] = (m.heap.object a).toList := by
      rw [Heap.entriesOf_cons, Heap.entriesOf_singleton, he, List.nil_append]
    have h := creates_merge ev loc m [a, e]
    have h' := creates_merge ev loc m [e, a]
    -- Either way the entries are those of the one object, whose keys are distinct.
    rw [hlast, OrderedMap.toList_ofList_toList] at h
    rw [hfirst, OrderedMap.toList_ofList_toList] at h'
    exact ⟨h, h'⟩

/-- The literal `{x: b}`. -/
def Expr.ofFlag (b : Bool) : Expr :=
  .object default [.property "x" (.literal default (.boolean b))]

/-- Of a true and a false flag, the false one is left, whether they are merged or spread. -/
theorem merging_agrees_with_spreading_flags :
    let ev := Evaluator.ofBound 3
    let exprs := [Expr.ofFlag true, Expr.ofFlag false]
    let merge (vs : List Value) := (Builtin.object .merge).call ev vs default
    ∃ m : Machine, Denotes ev {} exprs [0, 1] m ∧
      m.heap.Has (.object 0) ∧ m.heap.Has (.object 1) ∧
      expression ev (.object default (exprs.map .spread)) {} = merge [.object 0, .object 1] m ∧
      (∃ es, m.heap.Merges [0, 1] es ∧
        (merge [.object 0, .object 1]).Creates m (Heap.IsObject es)) ∧
      ∃ es, m.heap.Merges [0, 1, 0] es ∧
        (merge [.object 0, .object 1, .object 0]).Creates m (Heap.IsObject es) ∧
        (merge [.object 0, .object 1] >>= fun v => merge [v, .object 0]).Creates m
          (Heap.IsObject es) := by
  intro ev exprs merge
  let m : Machine :=
    { heap := { objects := #[.ofList [("x", .bool true)], .ofList [("x", .bool false)]] } }
  have hfirst : ev.expr (.ofFlag true) {} =
      .ok (.object 0) { heap := { objects := #[.ofList [("x", .bool true)]] } } := rfl
  have hexprs : Denotes ev {} exprs [0, 1] m := .cons hfirst (.cons rfl (.nil m) rfl) rfl
  obtain ⟨merges, spreads, associative, -⟩ := merging_agrees_with_spreading ev default m
  have h0 : m.heap.Has (.object 0) := Nat.zero_lt_two
  obtain ⟨es, hes, honce, htwice, -⟩ := associative 0 1 0 h0 Nat.one_lt_two h0
  exact ⟨m, hexprs, h0, Nat.one_lt_two, spreads {} exprs [0, 1] default hexprs,
    merges [0, 1], es, hes, honce, htwice⟩

/-! ### Pairs -/

namespace Heap

/-- **Pairs.** An array of arrays, each of a text and a value. -/
def IsPairs (ps : List (String × Value)) (h : Heap) (v : Value) : Prop :=
  ∃ r, v = .array r ∧
    List.Forall₂ (fun w p => h.IsArray [.string p.1, p.2] w) (h.array r).toList ps

variable {h h' : Heap} {v : Value} {x : Value} {xs : List Value}

/-- An array that is not empty is there, so it stays. -/
theorem IsArray.grows (hv : h.IsArray (x :: xs) v) (hg : h.Grows h') : h'.IsArray (x :: xs) v := by
  obtain ⟨r, rfl, hr⟩ := hv
  have hthere : r < h.arrays.size := by
    by_contra hge
    rw [Heap.array, Array.getD_eq_getD_getElem?,
      Array.getElem?_eq_none (Nat.le_of_not_lt hge)] at hr
    cases hr
  exact ⟨r, rfl, (congrArg Array.toList (hg.array r hthere)).trans hr⟩

end Heap

section Pairs

variable (ev : Evaluator) (loc : Location) {m : Machine} {v : Value} {vs : List Value}
  {ps : List (String × Value)}

/-- Entries are made into pairs one after the other, and a pair is left alone when the next ones are
made. -/
theorem CoreFn.exists_pairs (es : List (String × Value)) (m : Machine) :
    ∃ vs m', pairs es m = .ok vs m' ∧ m.heap.Grows m'.heap ∧
      List.Forall₂ (fun w p => m'.heap.IsArray [.string p.1, p.2] w) vs es := by
  induction es generalizing m with
  | nil => exact ⟨[], m, rfl, .refl m.heap, .nil⟩
  | cons e es ih =>
    obtain ⟨w, -, m₁, hw, -, -, hgrows, hpair⟩ :=
      Eval.Creates.of_newList [.string e.1, e.2] m
    obtain ⟨vs, m', hvs, hgrows', hpairs⟩ := ih m₁
    refine ⟨w :: vs, m', ?_, hgrows.trans hgrows', .cons (hpair.grows hgrows') hpairs⟩
    exact (bind_of_ok hw).trans (bind_of_ok hvs)

theorem CoreFn.creates_entries (m : Machine) (o : Ref) :
    ((Builtin.core .entries).call ev [.object o] loc).Creates m
      (Heap.IsPairs (m.heap.object o).toList) := by
  obtain ⟨vs, m', hvs, hgrows, hpairs⟩ := exists_pairs (m.heap.object o).toList m
  obtain ⟨w, c, n, hw, hc, hnew, hgrows', s, rfl, hs⟩ := Eval.Creates.of_newList vs m'
  have hcall : (Builtin.core .entries).call ev [.object o] loc m = newList vs m' := by
    rw [Builtin.call_of_accepts rfl]
    exact bind_of_ok hvs
  refine ⟨_, c, n, hcall.trans hw, hc, hnew.after hgrows, hgrows.trans hgrows', s, rfl, ?_⟩
  -- The array of the pairs is made after them, and leaves them alone as well.
  rw [hs]
  exact hpairs.imp fun w p hpair => hpair.grows hgrows'

namespace ObjectFn

theorem entriesFrom_pairs
    (hvs : List.Forall₂ (fun w p => m.heap.IsArray [.string p.1, p.2] w) vs ps) (i : Nat)
    (done : OrderedMap Value) : entriesFrom loc i vs done m = .ok (done.insertAll ps) m := by
  induction hvs generalizing i done with
  | nil => rfl
  | @cons w p vs ps hpair _ ih =>
    obtain ⟨s, rfl, hs⟩ := hpair
    have hparts : entryParts (.array s) m = .ok [.string p.1, p.2] m := by
      rw [← hs]
      rfl
    exact (bind_of_ok hparts).trans (ih (i + 1) (done.insert p.1 p.2))

theorem creates_fromEntries (hv : m.heap.IsPairs ps v) :
    ((Builtin.object .fromEntries).call ev [v] loc).Creates m
      (Heap.IsObject (OrderedMap.ofList ps).toList) := by
  obtain ⟨r, rfl, hr⟩ := hv
  refine .of_eq (.of_newObject _ m) ?_
  rw [Builtin.call_of_accepts rfl]
  exact bind_of_ok (entriesFrom_pairs loc hr 0 .empty)

end ObjectFn

end Pairs

/-! ### Picking and leaving out -/

/-- **Parts.** What is picked of a map by keys, in the order in which the keys first come, and what
is left out, in its old order. Together they are the entries of the map, each once. -/
structure OrderedMap.Parts {α : Type} (m : OrderedMap α) (keys : List String)
    (picked others : List (String × α)) : Prop where
  keys_picked : picked.map Prod.fst = (keys.filter (· ∈ m.keys)).eraseDups
  keys_others : others.map Prod.fst = m.keys.filter (· ∉ keys)
  perm : (picked ++ others).Perm m.toList

namespace OrderedMap

variable {α : Type} {m : OrderedMap α}

/-- The entries of some keys, as far as they have one. -/
def found (m : OrderedMap α) (keys : List String) : List (String × α) :=
  keys.filterMap fun k => (m.get? k).map fun v => (k, v)

theorem mem_found {keys : List String} {e : String × α} :
    e ∈ m.found keys ↔ e ∈ m.toList ∧ e.1 ∈ keys := by
  rw [found, List.mem_filterMap, ← get?_eq_some_iff]
  constructor
  · rintro ⟨k, hk, he⟩
    obtain ⟨v, hv, rfl⟩ := Option.map_eq_some_iff.mp he
    exact ⟨hv, hk⟩
  · rintro ⟨he, hk⟩
    exact ⟨e.1, hk, by rw [he, Option.map_some]⟩

theorem keys_found (m : OrderedMap α) (keys : List String) :
    (m.found keys).map Prod.fst = keys.filter (· ∈ m.keys) := by
  rw [found, List.map_filterMap, ← List.filterMap_eq_filter]
  refine List.filterMap_congr fun k _ => ?_
  have hk : (m.get? k).isSome ↔ k ∈ m.keys := isSome_get?_iff
  cases hfound : m.get? k with
  | none =>
    rw [hfound] at hk
    simp [Option.guard, ← hk]
  | some v =>
    rw [hfound] at hk
    simp [Option.guard, ← hk]

/-- What is made of found entries are entries, and each key that is asked for has one. -/
theorem mem_toList_ofList_found {keys : List String} {e : String × α} :
    e ∈ (ofList (m.found keys)).toList ↔ e ∈ m.toList ∧ e.1 ∈ keys := by
  have hback (f : String × α) (hf : f ∈ (ofList (m.found keys)).toList) :
      f ∈ m.toList ∧ f.1 ∈ keys := by
    rw [← get?_eq_some_iff, get?_ofList] at hf
    exact mem_found.mp (List.mem_reverse.mp (Entries.mem_of_get? hf))
  refine ⟨hback e, fun ⟨he, hk⟩ => ?_⟩
  have hkey : e.1 ∈ (ofList (m.found keys)).keys := by
    rw [keys_ofList, List.mem_eraseDups]
    exact List.mem_map_of_mem (mem_found.mpr ⟨he, hk⟩)
  obtain ⟨⟨k, v⟩, hv, rfl⟩ := List.mem_map.mp hkey
  -- The map has one value for the key, so the entry that is found is the given one.
  have hsame : m.get? e.1 = some v := get?_eq_some_iff.mpr (hback _ hv).1
  rw [get?_eq_some_iff.mpr he, Option.some.injEq] at hsame
  rwa [← hsame] at hv

theorem parts (m : OrderedMap α) (keys : List String) :
    m.Parts keys (ofList (m.found keys)).toList
      (ofList (m.toList.filter fun e => !keys.contains e.1)).toList := by
  have hothers : (ofList (m.toList.filter fun e => !keys.contains e.1)).toList =
      m.toList.filter fun e => !keys.contains e.1 := by
    refine toList_ofList_of_nodup ?_
    exact m.nodup_keys.sublist (List.filter_sublist.map Prod.fst)
  rw [hothers]
  refine ⟨?keys_picked, ?keys_others, ?perm⟩
  case keys_picked =>
    change (ofList (m.found keys)).keys = _
    rw [keys_ofList, keys_found]
  case keys_others =>
    rw [OrderedMap.keys, List.filter_map]
    simp [Function.comp_def]
  case perm =>
    -- What is picked is in the order of the keys, so it is a permutation of what a filter keeps.
    have hpicked : (ofList (m.found keys)).toList.Perm
        (m.toList.filter fun e => keys.contains e.1) := by
      refine (List.perm_ext_iff_of_nodup ?_ ?_).mpr fun e => ?_
      · exact (nodup_keys _).of_map
      · exact m.nodup_keys.of_map.filter _
      · rw [mem_toList_ofList_found, List.mem_filter, List.contains_iff_mem]
    exact (hpicked.append_right _).trans (List.filter_append_perm _ _)

end OrderedMap

namespace ObjectFn

variable (ev : Evaluator) (loc : Location) {m : Machine} {o l : Ref} {keys : List String}

theorem keyTexts_strings (function : String) (i : Nat) (keys : List String) :
    keyTexts function loc i (keys.map .string) m = .ok keys m := by
  induction keys generalizing i with
  | nil => rfl
  | cons key keys ih => exact bind_of_ok (ih (i + 1))

theorem withKeys_eq (function : String) (hl : (m.heap.array l).toList = keys.map .string) :
    withKeys function [.object o, .array l] loc m = .ok (m.heap.object o, keys) m := by
  have hkeys : keyTexts function loc 0 (m.heap.array l).toList m = .ok keys m := by
    rw [hl]
    exact keyTexts_strings loc function 0 keys
  exact bind_of_ok hkeys

theorem creates_pick (hl : (m.heap.array l).toList = keys.map .string) :
    ((Builtin.object .pick).call ev [.object o, .array l] loc).Creates m
      (Heap.IsObject (OrderedMap.ofList ((m.heap.object o).found keys)).toList) := by
  refine .of_eq (.of_newObject _ m) ?_
  rw [Builtin.call_of_accepts rfl]
  refine (bind_of_ok (withKeys_eq loc "pick" hl)).trans ?_
  rfl

theorem creates_omit (hl : (m.heap.array l).toList = keys.map .string) :
    ((Builtin.object .omit).call ev [.object o, .array l] loc).Creates m
      (Heap.IsObject (OrderedMap.ofList
        ((m.heap.object o).toList.filter fun e => !keys.contains e.1)).toList) := by
  refine .of_eq (.of_newObject _ m) ?_
  rw [Builtin.call_of_accepts rfl]
  refine (bind_of_ok (withKeys_eq loc "omit" hl)).trans ?_
  rfl

end ObjectFn

open ObjectFn in
/-- **Entries rebuild objects.** An object that is made of the entries of another one has these
entries, in this order. Pairs of different texts and a value each are listed again, in this order,
as the entries of the object that is made of them. What is picked of an object and what is left out
by the same keys are its parts. -/
theorem entries_rebuild_objects (ev : Evaluator) (loc : Location) (m : Machine) :
    let entries (v : Value) := (Builtin.core .entries).call ev [v] loc
    let call (f : ObjectFn) (args : List Value) := (Builtin.object f).call ev args loc
    (∀ o : Ref, (entries (.object o) >>= fun v => call .fromEntries [v]).Creates m
      (Heap.IsObject (m.heap.object o).toList)) ∧
    (∀ v ps, m.heap.IsPairs ps v → (ps.map Prod.fst).Nodup →
      (call .fromEntries [v] >>= entries).Creates m (Heap.IsPairs ps)) ∧
    ∀ (o : Ref) v keys, m.heap.IsArray (keys.map .string) v →
      ∃ picked others, (m.heap.object o).Parts keys picked others ∧
        (call .pick [.object o, v]).Creates m (Heap.IsObject picked) ∧
        (call .omit [.object o, v]).Creates m (Heap.IsObject others) := by
  intro entries call
  refine ⟨fun o => ?rebuilt, fun v ps hv hps => ?listed, fun o v keys hv => ?parts⟩
  case rebuilt =>
    refine (CoreFn.creates_entries ev loc m o).bind fun v m' _ hv => ?_
    have hobject := creates_fromEntries ev loc hv
    rwa [OrderedMap.toList_ofList_toList] at hobject
  case listed =>
    refine (creates_fromEntries ev loc hv).bind ?_
    rintro _ m' - ⟨o, rfl, ho⟩
    have hlisted := CoreFn.creates_entries ev loc m' o
    rwa [ho, OrderedMap.toList_ofList_of_nodup hps] at hlisted
  case parts =>
    obtain ⟨l, rfl, hl⟩ := hv
    exact ⟨_, _, (m.heap.object o).parts keys, creates_pick ev loc hl,
      creates_omit ev loc hl⟩

/-- Of an object with two keys, one is picked, though it is asked for twice, and the other one is
left out. Beside them stands a pair of a third key. -/
theorem entries_rebuild_objects_pair :
    let ev := Evaluator.ofBound 0
    let m : Machine := { heap :=
      { arrays := #[#[.string "z", .null], #[.array 0], #[.string "y", .string "z", .string "y"]]
        objects := #[.ofList [("x", .bool true), ("y", .bool false)]] } }
    let entries (v : Value) := (Builtin.core .entries).call ev [v] default
    let call (f : ObjectFn) (args : List Value) := (Builtin.object f).call ev args default
    m.heap.IsPairs [("z", .null)] (.array 1) ∧
      ([("z", Value.null)].map Prod.fst).Nodup ∧
      m.heap.IsArray (["y", "z", "y"].map .string) (.array 2) ∧
      (entries (.object 0) >>= fun v => call .fromEntries [v]).Creates m
        (Heap.IsObject (m.heap.object 0).toList) ∧
      (call .fromEntries [.array 1] >>= entries).Creates m (Heap.IsPairs [("z", .null)]) ∧
      ∃ picked others, picked.map Prod.fst = ["y"] ∧ others.map Prod.fst = ["x"] ∧
        (call .pick [.object 0, .array 2]).Creates m (Heap.IsObject picked) ∧
        (call .omit [.object 0, .array 2]).Creates m (Heap.IsObject others) := by
  intro ev m entries call
  have hkeys : (m.heap.object 0).keys = ["x", "y"] :=
    (OrderedMap.keys_ofList [("x", Value.bool true), ("y", .bool false)]).trans (by decide)
  have hpairs : m.heap.IsPairs [("z", .null)] (.array 1) :=
    ⟨1, rfl, .cons ⟨0, rfl, rfl⟩ .nil⟩
  have hnodup : ([("z", Value.null)].map Prod.fst).Nodup := List.nodup_singleton "z"
  have hlist : m.heap.IsArray (["y", "z", "y"].map .string) (.array 2) := ⟨2, rfl, rfl⟩
  obtain ⟨rebuilt, listed, parts⟩ := entries_rebuild_objects ev default m
  obtain ⟨picked, others, hparts, hpick, homit⟩ := parts 0 (.array 2) ["y", "z", "y"] hlist
  refine ⟨hpairs, hnodup, hlist, rebuilt 0, listed _ _ hpairs hnodup, picked, others,
    ?_, ?_, hpick, homit⟩
  · rw [hparts.keys_picked, hkeys]
    decide
  · rw [hparts.keys_others, hkeys]
    decide

end ScriptLang
