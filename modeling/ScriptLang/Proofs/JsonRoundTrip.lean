import ScriptLang.Proofs.DeepEquality
import ScriptLang.Proofs.PlainValues

/-!
# Values through JSON

What `json.stringify` makes of a plain value is read by `json.parse` as a copy of the value: other
containers with the same contents, whatever blanks the text is indented by.

The value of a document is made from the inside out: first the elements of an array, one after the
other, then the array. So while a container is made, the heap has grown by those inside of it, and
what these show has to stay.

* `JsonFn.Makes` — making the value of a document ends, and the value shows the document. The heap
  grows, and nothing else of the machine changes.
* `JsonFn.makes_items` and `JsonFn.makes_members` — the loops, for whatever elements and members are
  made. A member goes to the end, since its key is new.
* `JsonFn.makes_of_rereads` puts these together, by induction on the document.
* `Heap.Copies` — a value is a copy of another one. The keys of objects are in the same order, and
  so copies are equal by contents (`Heap.Copies.deepEq`), which does not ask for an order.
* Two values that show one document are copies of each other (`Heap.Shows.copies`). This is where
  the two ways meet: the document is that of the text, the one value is written and the other is
  made from it.
* `json_round_trip` is the main statement. Reading a number that is not whole takes several
  roundings, so that its text is read as an equal number is assumed there, of the text by itself.
-/

namespace ScriptLang.JsonFn

open Eval Heap

variable {m : Machine} {j : JsonValue}

/-- **Makes.** In every machine, making the value of a document gives one that shows the document,
and adds containers to the heap. -/
def Makes (j : JsonValue) : Prop :=
  ∀ m : Machine, ∃ w h, ofJson j m = .ok w { m with heap := h } ∧ m.heap.Grows h ∧ h.Shows w j

/-- A scalar needs no container. -/
theorem makes_scalar {w : Value} (hj : ofJson j = pure w) (hw : ∀ h : Heap, h.Shows w j) :
    Makes j := fun m => ⟨w, m.heap, congrFun hj m, .refl _, hw _⟩

/-- The values of elements, after those done before. -/
theorem makes_items {js : List JsonValue} (hjs : ∀ j ∈ js, Makes j) (m : Machine)
    (done : Array Value) :
    ∃ items, ∃ ps : List (Value × JsonValue), ∃ h,
      ofItems js done m = .ok items { m with heap := h } ∧
      items.toList = done.toList ++ ps.map (·.1) ∧ ps.map (·.2) = js ∧
      m.heap.Grows h ∧ ∀ p ∈ ps, h.Shows p.1 p.2 := by
  induction js generalizing m done with
  | nil => exact ⟨done, [], m.heap, rfl, by simp, rfl, .refl _, nofun⟩
  | cons j js ih =>
    obtain ⟨w, h, hj, hgrows, hshows⟩ := hjs j List.mem_cons_self m
    obtain ⟨items, ps, h', hrest, hitems, hps, hgrows', hshows'⟩ :=
      ih (fun i hi => hjs i (List.mem_cons_of_mem j hi)) { m with heap := h } (done.push w)
    refine ⟨items, (w, j) :: ps, h', ?_, ?_, ?_, hgrows.trans hgrows', ?_⟩
    · rw [ofItems, bind_of_ok hj, hrest]
    · rw [hitems, Array.toList_push, List.append_assoc]
      rfl
    · rw [List.map_cons, hps]
    · exact List.forall_mem_cons.mpr ⟨hshows.grows hgrows', hshows'⟩

/-- The values of members with new keys, after those done before. -/
theorem makes_members {js : List (String × JsonValue)} (hjs : ∀ e ∈ js, Makes e.2)
    (m : Machine) (done : OrderedMap Value)
    (hkeys : (done.keys ++ js.map (·.1)).Nodup) :
    ∃ entries, ∃ ps : List (String × Value × JsonValue), ∃ h,
      ofMembers js done m = .ok entries { m with heap := h } ∧
      entries.toList = done.toList ++ ps.map (fun p => (p.1, p.2.1)) ∧
      (ps.map fun p => (p.1, p.2.2)) = js ∧
      m.heap.Grows h ∧ ∀ p ∈ ps, h.Shows p.2.1 p.2.2 := by
  induction js generalizing m done with
  | nil => exact ⟨done, [], m.heap, rfl, by simp, rfl, .refl _, nofun⟩
  | cons e js ih =>
    obtain ⟨k, j⟩ := e
    obtain ⟨w, h, hj, hgrows, hshows⟩ := hjs _ List.mem_cons_self m
    -- The key is new, so the member is appended and replaces none.
    have hk : k ∉ done.keys := fun hk =>
      List.disjoint_of_nodup_append hkeys hk List.mem_cons_self
    have hlist := OrderedMap.toList_insert_of_not_mem hk w
    have hkeys' : ((done.insert k w).keys ++ js.map (·.1)).Nodup := by
      rw [OrderedMap.keys, hlist, List.map_append, List.append_assoc]
      exact hkeys
    obtain ⟨entries, ps, h', hrest, hentries, hps, hgrows', hshows'⟩ :=
      ih (fun i hi => hjs i (List.mem_cons_of_mem _ hi)) { m with heap := h } (done.insert k w)
        hkeys'
    refine ⟨entries, (k, w, j) :: ps, h', ?_, ?_, ?_, hgrows.trans hgrows', ?_⟩
    · rw [ofMembers, bind_of_ok hj, hrest]
    · rw [hentries, hlist, List.append_assoc]
      rfl
    · rw [List.map_cons, hps]
    · exact List.forall_mem_cons.mpr ⟨hshows.grows hgrows', hshows'⟩

theorem makes_array {js : List JsonValue} (hjs : ∀ j ∈ js, Makes j) : Makes (.array js) := by
  intro m
  obtain ⟨items, ps, h, hrun, hitems, rfl, hgrows, hshows⟩ := makes_items hjs m #[]
  have hnew := h.grows_allocArray items
  refine ⟨.array h.arrays.size, (h.allocArray items).2, ?_, hgrows.trans hnew, ?_⟩
  · rw [ofJson, bind_of_ok hrun]
    rfl
  · refine .array (by simp [allocArray]) ?_ fun p hp => (hshows p hp).grows hnew
    rw [array_allocArray, hitems, List.nil_append]

theorem makes_object {js : List (String × JsonValue)} (hkeys : (js.map (·.1)).Nodup)
    (hjs : ∀ e ∈ js, Makes e.2) : Makes (.object js) := by
  intro m
  obtain ⟨entries, ps, h, hrun, hentries, rfl, hgrows, hshows⟩ :=
    makes_members hjs m .empty hkeys
  have hnew := h.grows_allocObject entries
  refine ⟨.object h.objects.size, (h.allocObject entries).2, ?_, hgrows.trans hnew, ?_⟩
  · rw [ofJson, bind_of_ok hrun]
    rfl
  · refine .object (by simp [allocObject]) ?_ fun p hp => (hshows p hp).grows hnew
    rw [object_allocObject, hentries]
    rfl

/-- **Values of documents.** A document whose keys are not repeated and whose numbers are equal to
themselves is shown by the value that is made of it. -/
theorem makes_of_rereads {depth : Nat} {j' : JsonValue} (h : j.Rereads depth j') : Makes j' := by
  induction h with
  | null => exact makes_scalar (by rw [ofJson]) fun _ => .null
  | bool b => exact makes_scalar (by rw [ofJson]) fun _ => .bool b
  | number _ hy =>
    exact makes_scalar (by rw [ofJson]) fun _ =>
      .number (Value.number_trans hy (Value.number_symm hy))
  | string s => exact makes_scalar (by rw [ofJson]) fun _ => .string s
  | array _ ih => exact makes_array (List.forall_mem_map.mpr ih)
  | object hkeys _ ih =>
    refine makes_object ?_ (List.forall_mem_map.mpr ih)
    rw [List.map_map]
    exact hkeys

end ScriptLang.JsonFn

namespace ScriptLang

/-! ### Copies -/

namespace Heap

/-- **Copies.** Equal scalars, arrays of one length with copies at the same places, and objects of
the same keys in the same order with copies under the same keys. -/
inductive Copies (h : Heap) : Value → Value → Prop
  | scalar {v w} (hv : v.container? = none) (hs : v.same w = true) : Copies h v w
  | array {r s} (hsize : (h.array r).size = (h.array s).size)
    (hi : ∀ (i : Nat) v w, (h.array r)[i]? = some v → (h.array s)[i]? = some w → Copies h v w) :
    Copies h (.array r) (.array s)
  | object {r s} (hkeys : (h.object r).keys = (h.object s).keys)
    (hi : ∀ k v w, (h.object r).get? k = some v → (h.object s).get? k = some w → Copies h v w) :
    Copies h (.object r) (.object s)

variable {h : Heap} {v w : Value} {j : JsonValue}

theorem bisimulation_copies (h : Heap) : h.Bisimulation h.Copies := by
  intro v w hc
  cases hc with
  | scalar _ hs => exact .same hs
  | array hsize hi => exact .arrays hsize hi
  | object hkeys hi => exact .objects (fun k => hkeys ▸ Iff.rfl) hi

/-- Copies are equal by contents. -/
theorem Copies.deepEq (hc : h.Copies v w) : h.deepEq v w = true :=
  (compares_deepEq v w).iff_alike.mpr ⟨h.Copies, h.bisimulation_copies, hc⟩

section Entries

variable {m : OrderedMap Value} {ps : List (String × Value × JsonValue)}
  (hm : m.toList = ps.map fun p => (p.1, p.2.1))
include hm

theorem keys_of_entries : m.keys = ps.map (·.1) := by
  rw [OrderedMap.keys, hm, List.map_map]
  rfl

theorem exists_mem_of_get? {k : String} (hk : m.get? k = some v) :
    ∃ j, (k, v, j) ∈ ps := by
  rw [OrderedMap.get?_eq_some_iff, hm] at hk
  obtain ⟨⟨_, _, j⟩, hp, he⟩ := List.mem_map.mp hk
  cases he
  exact ⟨j, hp⟩

end Entries

/-- **One document.** Values that show the same document are copies of each other. -/
theorem Shows.copies (hv : h.Shows v j) (hw : h.Shows w j) : h.Copies v w := by
  induction hv generalizing w with
  | null =>
    cases hw
    exact .scalar rfl rfl
  | bool b =>
    cases hw
    exact .scalar rfl (beq_self_eq_true b)
  | number hx =>
    cases hw with
    | number hy => exact .scalar rfl (Value.number_trans hx (Value.number_symm hy))
  | string s =>
    cases hw
    exact .scalar rfl (beq_self_eq_true s)
  | @array r ps _ hitems _ ih =>
    generalize hps : ps.map (·.2) = js at hw
    cases hw with
    | @array s qs _ hitems' hq =>
      have hlength : ps.length = qs.length := by simpa using congrArg List.length hps
      refine .array ?_ fun i v w hi hi' => ?_
      · rw [← Array.length_toList, ← Array.length_toList, hitems, hitems', List.length_map,
          List.length_map, hlength]
      · rw [← Array.getElem?_toList, hitems, List.getElem?_map] at hi
        rw [← Array.getElem?_toList, hitems', List.getElem?_map] at hi'
        obtain ⟨p, hp, rfl⟩ := Option.map_eq_some_iff.mp hi
        obtain ⟨q, hq', rfl⟩ := Option.map_eq_some_iff.mp hi'
        have hpq : p.2 = q.2 := by
          have hplace := congrArg (·[i]?) hps
          simpa [hp, hq'] using hplace
        exact ih p (List.mem_of_getElem? hp) (hpq ▸ hq q (List.mem_of_getElem? hq'))
  | @object r ps _ hentries _ ih =>
    generalize hps : ps.map (fun p => (p.1, p.2.2)) = js at hw
    cases hw with
    | @object s qs _ hentries' hq =>
      have hkeys : (h.object r).keys = (h.object s).keys := by
        rw [keys_of_entries hentries, keys_of_entries hentries']
        simpa [Function.comp_def] using congrArg (List.map (·.1)) hps
      refine .object hkeys fun k v w hk hk' => ?_
      obtain ⟨i, hp⟩ := exists_mem_of_get? hentries hk
      obtain ⟨i', hq'⟩ := exists_mem_of_get? hentries' hk'
      -- A key has one member in the document.
      obtain rfl : i = i' := by
        have hi : (k, i) ∈ qs.map fun q => (q.1, q.2.2) := hps ▸ List.mem_map_of_mem hp
        have hi' : (k, i') ∈ qs.map fun q => (q.1, q.2.2) := List.mem_map_of_mem hq'
        have hnodup : ((qs.map fun q => (q.1, q.2.2)).map (·.1)).Nodup := by
          rw [List.map_map]
          exact keys_of_entries hentries' ▸ (h.object s).nodup_keys
        exact congrArg (·.2) (List.inj_on_of_nodup_map hnodup hi hi' rfl)
      exact ih _ hp (hq _ hq')

end Heap

/-! ### Indentations -/

namespace JsonFn

open JsonCursor (AllBlank)

/-- **Blank indentations.** None, a number that is not negative, or a text of blanks. -/
inductive BlankIndent : Value → Prop
  | none : BlankIndent .null
  | number {x : Float} (hx : ¬ x < 0) : BlankIndent (.number x)
  | string {s : String} (hs : AllBlank s.toList) : BlankIndent (.string s)

/-- A blank indentation is accepted. -/
theorem BlankIndent.indentOf {args : List Value} (h : BlankIndent (Argument.nth args 2))
    (loc : Location) (m : Machine) :
    ∃ indent, JsonFn.indentOf args loc m = .ok indent m ∧ AllBlank indent.toList := by
  unfold JsonFn.indentOf
  generalize Argument.nth args 2 = a at h
  cases h with
  | none => exact ⟨"", rfl, nofun⟩
  | @number x hx =>
    refine ⟨_, by simp only [if_neg hx]; rfl, fun ch hch => ?_⟩
    rw [String.toList_ofList] at hch
    rw [List.eq_of_mem_replicate hch]
    decide
  | string hs =>
    refine ⟨_, rfl, fun ch hch => hs ch ?_⟩
    rw [String.toList_ofList] at hch
    exact List.mem_of_mem_take hch

/-- What is read is made into a value. -/
theorem run_parse {s : String} {j : JsonValue} (hs : JsonReader.read s = .ok j) (loc : Location) :
    run .parse [.string s] loc = ofJson j := by
  simp [run, Argument.nth, hs]

end JsonFn

/-! ### The main statement -/

/-- **Values come back from JSON.** Of a plain value, with its containers nested as
deep as documents can be at most, and with any blank indentation, `json.stringify` gives a text. In
whatever heap that has grown from that one, `json.parse` gives a copy of the value for that text,
which is equal to the value by contents, and only adds containers to the heap. Numbers that are not
small and whole are assumed to be read, from their texts by themselves, as equal numbers. -/
theorem json_round_trip {m : Machine} {v : Value} {rest : List Value}
    (hv : m.heap.Plain JsonReader.maxDepth v)
    (hindent : JsonFn.BlankIndent (Argument.nth (v :: rest) 2))
    (hnumbers : ∀ x, m.heap.Reaches v (.number x) → ¬ JsonReader.SmallWhole x →
      ∃ y, JsonReader.read (JsonWriter.number x) = .ok (.number y) ∧ (y == x) = true)
    (loc : Location) :
    ∃ s, JsonFn.run .stringify (v :: rest) loc m = .ok (.string s) m ∧
      ∀ (n : Machine) (loc' : Location), m.heap.Grows n.heap →
        ∃ w h, JsonFn.run .parse [.string s] loc' n = .ok w { n with heap := h } ∧
          n.heap.Grows h ∧ h.deepEq w v = true ∧ h.Copies w v := by
  obtain ⟨j, j', hj, hrereads, hshows⟩ := hv.toJson? fun x hx hfinite =>
    JsonReader.legible_of_finite hfinite (hnumbers x hx)
  obtain ⟨indent, hrun, hblank⟩ := hindent.indentOf loc m
  refine ⟨JsonWriter.write indent j, JsonFn.run_stringify_ok hrun hj, fun n loc' hgrows => ?_⟩
  obtain ⟨w, h, hw, hgrows', hshows'⟩ := JsonFn.makes_of_rereads hrereads n
  have hparse := JsonFn.run_parse (hrereads.read_write hblank) loc'
  have hcopies := hshows'.copies (hshows.grows (hgrows.trans hgrows'))
  exact ⟨w, h, hparse ▸ hw, hgrows', hcopies.deepEq, hcopies⟩

/-- An array that holds an object, which holds an empty array and a text to escape. Lines are
indented by two blanks. -/
theorem json_round_trip_nested :
    let entries := .ofList [("text", .string "\"\n"), ("list", .array 1)]
    let m : Machine :=
      { heap := { arrays := #[#[.number 0.5, .object 0], #[]], objects := #[entries] } }
    ∃ s, JsonFn.run .stringify [.array 0, .number 2] default m = .ok (.string s) m ∧
      ∃ w h, JsonFn.run .parse [.string s] default m = .ok w { m with heap := h } ∧
        h.deepEq w (.array 0) = true ∧ h.Copies w (.array 0) := by
  intro entries m
  have hitems : (m.heap.array 0).toList = [.number 0.5, .object 0] := rfl
  have hnone : (m.heap.array 1).toList = [] := rfl
  have hentries : (OrderedMap.ofList [("text", Value.string "\"\n"), ("list", .array 1)]).values =
      [.string "\"\n", .array 1] := by cbv
  have hvalues : (m.heap.object 0).values = [.string "\"\n", .array 1] := hentries
  have hv : m.heap.Plain JsonReader.maxDepth (.array 0) := by
    refine .array (by decide) ?_
    rw [hitems, List.forall_mem_cons, List.forall_mem_singleton]
    refine ⟨.number (by decide +kernel), .object (by decide) ?_⟩
    rw [hvalues, List.forall_mem_cons, List.forall_mem_singleton]
    exact ⟨.string _, .array (by decide) (hnone ▸ List.forall_mem_nil _)⟩
  -- All that is inside of the array, and nothing is inside of these that is not among them.
  have hreaches : ∀ w, m.heap.Reaches (.array 0) w →
      w ∈ [.array 0, .number 0.5, .object 0, .string "\"\n", .array 1] := by
    intro w hw
    induction hw with
    | refl => exact List.mem_cons_self
    | tail _ hw ih =>
      obtain ⟨c, hc, hw⟩ := hw
      simp only [List.mem_cons, List.not_mem_nil, or_false] at ih
      rcases ih with rfl | rfl | rfl | rfl | rfl <;> cases hc
      · change _ ∈ (m.heap.array 0).toList at hw
        rw [hitems] at hw
        grind
      · change _ ∈ (m.heap.object 0).values at hw
        rw [hvalues] at hw
        grind
      · cases hw
  obtain ⟨s, hs, hparse⟩ := @json_round_trip m (.array 0) [.number 2] hv
    (.number (by decide +kernel)) (fun x hx _ => by
      obtain rfl : x = 0.5 := by simpa using hreaches _ hx
      exact ⟨0.5, by rfl, by decide +kernel⟩) default
  obtain ⟨w, h, hw, _, hequal, hcopies⟩ := hparse m default (.refl _)
  exact ⟨s, hs, w, h, hw, hequal, hcopies⟩

end ScriptLang
