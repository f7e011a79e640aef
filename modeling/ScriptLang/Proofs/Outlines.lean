import Mathlib.Tactic.Choose
import ScriptLang.Library.Documents
import ScriptLang.Proofs.Containment

/-!
# Cycles in printed forms and documents

A value is printed, and made a document of, by a walk through what it holds. The walk does not enter
a container inside itself: printing writes a mark there, and making a document gives up. What it
entered and left again it may enter anew, so contents that merely occur twice are walked through
twice.

* An `Outline` is what such a walk sees, as a tree. `Heap.Outlines` is the walk, without a bound:
  every value has exactly one outline (`Heap.exists_outlines`, `Heap.Outlines.unique`), since every
  container that is entered is one less to enter.
* The printed form is the text of the outline (`Heap.Outlines.printFrom_eq`), and the document is
  that of the outline (`Heap.Outlines.toJsonFrom_eq`). The bounds of both are never met.
* `Heap.Unfolds` is plain recursion, which knows of no path and sees trees only. An outline without
  a mark is one that plain recursion comes to (`Heap.Outlines.unfolds`).
* `cycles_are_found` is the main statement: marks are written exactly if some container is inside
  itself, and then there is no document.
-/

namespace ScriptLang

/-! ### Lists of results -/

section Results

variable {ε α β : Type}

theorem mapM_congr {f g : α → Except ε β} {l : List α} (h : ∀ a ∈ l, f a = g a) :
    l.mapM f = l.mapM g := by
  induction l with
  | nil => rfl
  | cons a l ih =>
    rw [List.mapM_cons, List.mapM_cons, h a List.mem_cons_self,
      ih fun b hb => h b (List.mem_cons_of_mem a hb)]

/-- What is done with a result does not fail. -/
theorem andThen_eq_error_iff {x : Except ε α} {g : α → β} {e : ε} :
    (do let a ← x; return g a) = Except.error e ↔ x = .error e := by
  cases x with
  | ok a => exact iff_of_false nofun nofun
  | error e' =>
    exact ⟨fun h => congrArg _ (Except.error.inj h), fun h => congrArg _ (Except.error.inj h)⟩

/-- An error is that of an element. -/
theorem mapM_eq_error_iff {f : α → Except Unit β} {l : List α} :
    l.mapM f = .error () ↔ ∃ a ∈ l, f a = .error () := by
  induction l with
  | nil => exact iff_of_false nofun nofun
  | cons a l ih =>
    rw [List.mapM_cons, List.exists_mem_cons_iff]
    cases ha : f a with
    | error _ => exact iff_of_true rfl (.inl rfl)
    | ok b =>
      rw [← ih]
      cases l.mapM f with
      | error _ => exact iff_of_true rfl (.inr rfl)
      | ok bs => exact iff_of_false nofun nofun

end Results

/-! ### Outlines -/

/-- What a walk through a value sees. -/
inductive Outline where
  | scalar (v : Value)
  | array (items : List Outline)
  | object (members : List (String × Outline))
  /-- A container inside itself. -/
  | again (c : Container)
  deriving Inhabited

/-- The document of a scalar; functions have none. -/
def Value.document? : Value → Option JsonValue
  | .null => some .null
  | .bool b => some (.bool b)
  | .number x => some (.number x)
  | .string s => some (.string s)
  | .datetime t => some (.string t.iso)
  | .closure .. | .builtin .. | .array _ | .object _ => none

namespace Outline

theorem sizeOf_item {items : List Outline} {o : Outline} (ho : o ∈ items) :
    sizeOf o < sizeOf (array items) := by
  have h := List.sizeOf_lt_of_mem ho
  simp only [array.sizeOf_spec]
  omega

theorem sizeOf_member {members : List (String × Outline)} {m : String × Outline}
    (hm : m ∈ members) : sizeOf m.2 < sizeOf (object members) := by
  have h := List.sizeOf_lt_of_mem hm
  obtain ⟨k, o⟩ := m
  simp only [Prod.mk.sizeOf_spec, object.sizeOf_spec] at h ⊢
  omega

/-- The text of an outline. -/
def text : Outline → String
  | scalar v => v.scalarText
  | array items => "[" ++ String.intercalate ", " (items.map fun o => o.text) ++ "]"
  | object members =>
    "\x7b" ++ String.intercalate ", " (members.map fun m => m.1 ++ ": " ++ m.2.text) ++ "\x7d"
  | again c => Heap.cycleMark c
termination_by o => o
decreasing_by
  · exact sizeOf_item ‹_›
  · exact sizeOf_member ‹_›

/-- The document of an outline: `.ok none` for functions, and an error for a mark. -/
def document? : Outline → Except Unit (Option JsonValue)
  | scalar v => .ok v.document?
  | array items => do
    let items ← items.mapM fun o => o.document?
    return some (.array (items.map (·.getD .null)))
  | object members => do
    let members ← members.mapM fun m => do return (m.1, ← m.2.document?)
    return some (.object (members.filterMap fun m => m.2.map fun j => (m.1, j)))
  | again _ => .error ()
termination_by o => o
decreasing_by
  · exact sizeOf_item ‹_›
  · exact sizeOf_member ‹_›

/-- **Marked.** There is a container inside itself. -/
inductive Marked : Outline → Prop
  | again (c : Container) : Marked (again c)
  | item {items : List Outline} {o : Outline} (ho : o ∈ items) (hm : Marked o) :
    Marked (array items)
  | member {members : List (String × Outline)} {m : String × Outline} (hm : m ∈ members)
    (ho : Marked m.2) : Marked (object members)

end Outline

namespace Heap

/-- **Outlines.** The walk through a value inside the containers `path`, and what it sees. -/
inductive Outlines (h : Heap) : List Container → Value → Outline → Prop
  | scalar {path v} (hv : v.container? = none) : Outlines h path v (.scalar v)
  | again {path v c} (hv : v.container? = some c) (hc : c ∈ path) : Outlines h path v (.again c)
  | array {path r} {inside : Value → Outline} (hr : .array r ∉ path)
    (hi : ∀ w ∈ (h.array r).toList, Outlines h (.array r :: path) w (inside w)) :
    Outlines h path (.array r) (.array ((h.array r).toList.map inside))
  | object {path r} {inside : Value → Outline} (hr : .object r ∉ path)
    (hi : ∀ w ∈ (h.object r).values, Outlines h (.object r :: path) w (inside w)) :
    Outlines h path (.object r) (.object ((h.object r).toList.map fun e => (e.1, inside e.2)))

/-- **Unfolds.** Plain recursion through a value, and the tree that it sees. -/
inductive Unfolds (h : Heap) : Value → Outline → Prop
  | scalar {v} (hv : v.container? = none) : Unfolds h v (.scalar v)
  | array {r} {inside : Value → Outline} (hi : ∀ w ∈ (h.array r).toList, Unfolds h w (inside w)) :
    Unfolds h (.array r) (.array ((h.array r).toList.map inside))
  | object {r} {inside : Value → Outline} (hi : ∀ w ∈ (h.object r).values, Unfolds h w (inside w)) :
    Unfolds h (.object r) (.object ((h.object r).toList.map fun e => (e.1, inside e.2)))

variable {h : Heap} {path : List Container} {v : Value} {o o' : Outline} {n : Nat}

theorem mem_values {e : String × Value} {r : Ref} (he : e ∈ (h.object r).toList) :
    e.2 ∈ (h.object r).values := List.mem_map_of_mem he

/-! ### The walk ends -/

/-- Every value has an outline, by induction on the number of containers that are not entered. -/
theorem exists_outlines (h : Heap) (path : List Container) (v : Value) :
    ∃ o, h.Outlines path v o := by
  induction hn : freshCount h.containers path using Nat.strongRecOn generalizing path v with
  | ind n ih =>
    cases hv : v.container? with
    | none => exact ⟨_, .scalar hv⟩
    | some c =>
      by_cases hc : c ∈ path
      · exact ⟨_, .again hv hc⟩
      · -- Inside of the container, it is one of those that have been entered.
        have hinside : ∀ w ∈ h.children c, ∃ o, h.Outlines (c :: path) w o := fun w hw =>
          ih _ (hn ▸ freshCount_cons_lt (mem_containers hw) hc) _ _ rfl
        choose! inside hi using hinside
        cases v with
        | array r =>
          cases hv
          exact ⟨_, .array hc hi⟩
        | object r =>
          cases hv
          exact ⟨_, .object hc hi⟩
        | _ => cases hv

/-- A walk sees one outline. -/
theorem Outlines.unique (ho : h.Outlines path v o) (ho' : h.Outlines path v o') : o' = o := by
  -- The value and the path decide which step the other walk takes, so three cases of four are
  -- absurd each time.
  induction ho generalizing o' with
  | scalar hv =>
    cases ho' with
    | scalar _ => rfl
    | again hv' _ =>
      rw [hv] at hv'
      cases hv'
    | _ => cases hv
  | again hv hc =>
    cases ho' with
    | scalar hv' =>
      rw [hv] at hv'
      cases hv'
    | again hv' _ => rw [Option.some.inj (hv'.symm.trans hv)]
    | _ =>
      cases hv
      contradiction
  | array hr _ ih =>
    cases ho' with
    | scalar hv => cases hv
    | again hv hc =>
      cases hv
      contradiction
    | array _ hi => rw [List.map_congr_left fun w hw => ih w hw (hi w hw)]
  | object hr _ ih =>
    cases ho' with
    | scalar hv => cases hv
    | again hv hc =>
      cases hv
      contradiction
    | object _ hi =>
      rw [List.map_congr_left fun e he => by rw [ih e.2 (mem_values he) (hi e.2 (mem_values he))]]

/-! ### The bounds are not met -/

/-- **Printing.** What is printed is the text of the outline. -/
theorem Outlines.printFrom_eq (ho : h.Outlines path v o)
    (hn : freshCount h.containers path < n) : h.printFrom n path v = o.text := by
  -- By induction on the walk: a container that is entered leaves one fewer, and the bound is one
  -- less as well.
  induction ho generalizing n with
  | scalar hv =>
    obtain ⟨n, rfl⟩ := exists_succ_of_fresh hn
    rw [Outline.text]
    unfold printFrom
    split
    · cases hv
    · cases hv
    · rfl
  | @again path v c hv hc =>
    obtain ⟨n, rfl⟩ := exists_succ_of_fresh hn
    rw [Outline.text]
    cases v with
    | array r =>
      cases hv
      simp [printFrom, hc]
    | object r =>
      cases hv
      simp [printFrom, hc]
    | _ => cases hv
  | @array path r inside hr _ ih =>
    obtain ⟨n, rfl⟩ := exists_succ_of_fresh hn
    have hitems : (h.array r).toList.map (h.printFrom n (.array r :: path)) =
        ((h.array r).toList.map inside).map fun o => o.text := by
      rw [List.map_map]
      exact List.map_congr_left fun w hw => ih w hw (fresh_inside hn hr hw)
    simp only [printFrom, List.contains_eq_mem, hr, decide_false, Bool.false_eq_true, if_false,
      Outline.text, hitems]
  | @object path r inside hr _ ih =>
    obtain ⟨n, rfl⟩ := exists_succ_of_fresh hn
    have hmembers : ((h.object r).toList.map fun e =>
          e.1 ++ ": " ++ h.printFrom n (.object r :: path) e.2) =
        ((h.object r).toList.map fun e => (e.1, inside e.2)).map
          fun m => m.1 ++ ": " ++ m.2.text := by
      rw [List.map_map]
      refine List.map_congr_left fun e he => ?_
      rw [ih e.2 (mem_values he) (fresh_inside hn hr (mem_values he))]
      rfl
    simp only [printFrom, List.contains_eq_mem, hr, decide_false, Bool.false_eq_true, if_false,
      Outline.text, hmembers]

/-- **Documents.** The document is that of the outline. -/
theorem Outlines.toJsonFrom_eq (ho : h.Outlines path v o)
    (hn : freshCount h.containers path < n) : h.toJsonFrom n path v = o.document? := by
  -- As for printing.
  induction ho generalizing n with
  | @scalar path v hv =>
    obtain ⟨n, rfl⟩ := exists_succ_of_fresh hn
    rw [Outline.document?]
    cases v with
    | array r => cases hv
    | object r => cases hv
    | _ => rfl
  | @again path v c hv hc =>
    obtain ⟨n, rfl⟩ := exists_succ_of_fresh hn
    rw [Outline.document?]
    cases v with
    | array r =>
      cases hv
      simp [toJsonFrom, hc]
    | object r =>
      cases hv
      simp [toJsonFrom, hc]
    | _ => cases hv
  | @array path r inside hr _ ih =>
    obtain ⟨n, rfl⟩ := exists_succ_of_fresh hn
    have hitems : (h.array r).toList.mapM (h.toJsonFrom n (.array r :: path)) =
        ((h.array r).toList.map inside).mapM fun o => o.document? := by
      rw [List.mapM_map]
      exact mapM_congr fun w hw => ih w hw (fresh_inside hn hr hw)
    simp only [toJsonFrom, List.contains_eq_mem, hr, decide_false, Bool.false_eq_true, if_false,
      Outline.document?, hitems]
  | @object path r inside hr _ ih =>
    obtain ⟨n, rfl⟩ := exists_succ_of_fresh hn
    have hmembers : ((h.object r).toList.mapM fun e => do
          return (e.1, ← h.toJsonFrom n (.object r :: path) e.2)) =
        ((h.object r).toList.map fun e => (e.1, inside e.2)).mapM
          fun m => do return (m.1, ← m.2.document?) := by
      rw [List.mapM_map]
      refine mapM_congr fun e he => ?_
      rw [ih e.2 (mem_values he) (fresh_inside hn hr (mem_values he))]
      rfl
    simp only [toJsonFrom, List.contains_eq_mem, hr, decide_false, Bool.false_eq_true, if_false,
      Outline.document?, hmembers]

theorem Outlines.print_eq (ho : h.Outlines [] v o) : h.print v = o.text :=
  ho.printFrom_eq (Nat.lt_succ_of_le (h.freshCount_containers_le []))

theorem Outlines.toJson?_eq (ho : h.Outlines [] v o) : h.toJson? v = o.document? :=
  ho.toJsonFrom_eq (Nat.lt_succ_of_le (h.freshCount_containers_le []))

/-! ### Marks and cycles -/

/-- There is no document exactly if there is a mark. -/
theorem Outlines.document?_eq_error_iff (ho : h.Outlines path v o) :
    o.document? = .error () ↔ o.Marked := by
  induction ho with
  | scalar _ =>
    rw [Outline.document?]
    exact iff_of_false nofun nofun
  | again _ _ =>
    rw [Outline.document?]
    exact iff_of_true rfl (.again _)
  | array _ _ ih =>
    rw [Outline.document?, andThen_eq_error_iff, mapM_eq_error_iff]
    constructor
    · rintro ⟨o, ho, he⟩
      obtain ⟨w, hw, rfl⟩ := List.mem_map.mp ho
      exact .item ho ((ih w hw).mp he)
    · rintro (_ | ⟨ho, hm⟩)
      obtain ⟨w, hw, rfl⟩ := List.mem_map.mp ho
      exact ⟨_, ho, (ih w hw).mpr hm⟩
  | object _ _ ih =>
    rw [Outline.document?, andThen_eq_error_iff, mapM_eq_error_iff]
    simp only [andThen_eq_error_iff]
    constructor
    · rintro ⟨m, hm, he⟩
      obtain ⟨e, hmem, rfl⟩ := List.mem_map.mp hm
      exact .member hm ((ih e.2 (mem_values hmem)).mp he)
    · rintro (_ | _ | ⟨hm, ho⟩)
      obtain ⟨e, hmem, rfl⟩ := List.mem_map.mp hm
      exact ⟨_, hm, (ih e.2 (mem_values hmem)).mpr ho⟩

/-- A mark is that of a container that is inside itself, or of one that the walk came through. -/
theorem Outlines.cyclic (ho : h.Outlines path v o) (hm : o.Marked) :
    h.Cyclic v ∨ ∃ w c, w.container? = some c ∧ c ∈ path ∧ h.Reaches v w := by
  -- What holds of the parts of a container that is entered holds of it.
  have hstep {path : List Container} {c : Container} {v w : Value} (hv : v.container? = some c)
      (hvw : h.Contains v w)
      (hw : h.Cyclic w ∨ ∃ u d, u.container? = some d ∧ d ∈ c :: path ∧ h.Reaches w u) :
      h.Cyclic v ∨ ∃ u d, u.container? = some d ∧ d ∈ path ∧ h.Reaches v u := by
    rcases hw with hw | ⟨u, d, hu, hd, hwu⟩
    · exact .inl (.of_contains hvw hw)
    · rcases List.mem_cons.mp hd with rfl | hd
      · obtain rfl := Value.container?_inj hu hv
        exact .inl ⟨u, .refl, .head' hvw hwu⟩
      · exact .inr ⟨u, d, hu, hd, hwu.head hvw⟩
  induction ho with
  | scalar _ => cases hm
  | again hv hc => exact .inr ⟨_, _, hv, hc, .refl⟩
  | array _ _ ih =>
    cases hm with
    | item ho hm =>
      obtain ⟨w, hw, rfl⟩ := List.mem_map.mp ho
      exact hstep rfl (contains_array hw) (ih w hw hm)
  | object _ _ ih =>
    cases hm with
    | member ho hm =>
      obtain ⟨e, he, rfl⟩ := List.mem_map.mp ho
      exact hstep rfl (contains_object (mem_values he)) (ih e.2 (mem_values he) hm)

/-- Plain recursion sees an outline without marks. -/
theorem Outlines.unfolds (ho : h.Outlines path v o) (hm : ¬ o.Marked) : h.Unfolds v o := by
  induction ho with
  | scalar hv => exact .scalar hv
  | again _ _ => exact absurd (.again _) hm
  | array _ _ ih =>
    exact .array fun w hw => ih w hw fun h' => hm (.item (List.mem_map_of_mem hw) h')
  | object _ _ ih =>
    refine .object fun w hw => ih w hw fun h' => hm ?_
    obtain ⟨e, he, rfl⟩ := List.mem_map.mp hw
    exact .member (List.mem_map_of_mem he) h'

/-- Where plain recursion ends, there is no cycle. -/
theorem Unfolds.not_cyclic (ho : h.Unfolds v o) : ¬ h.Cyclic v := by
  intro hc
  induction ho with
  | scalar hv =>
    obtain ⟨w, hw, _⟩ := hc.inside
    exact not_contains hv hw
  | array _ ih =>
    obtain ⟨w, ⟨c, hv, hw⟩, hcw⟩ := hc.inside
    cases hv
    exact ih w hw hcw
  | object _ ih =>
    obtain ⟨w, ⟨c, hv, hw⟩, hcw⟩ := hc.inside
    cases hv
    exact ih w hw hcw

/-- There is a mark exactly if there is a cycle. -/
theorem Outlines.marked_iff (ho : h.Outlines [] v o) : o.Marked ↔ h.Cyclic v := by
  constructor
  · intro hm
    rcases ho.cyclic hm with hc | ⟨_, _, _, hnil, _⟩
    · exact hc
    · cases hnil
  · intro hc
    by_contra hm
    exact (ho.unfolds hm).not_cyclic hc

end Heap

/-! ### `json.stringify` -/

namespace JsonFn

variable {m : Machine} {args : List Value} {loc : Location} {indent : String}

theorem run_stringify_ok {j : Option JsonValue} (hi : indentOf args loc m = .ok indent m)
    (hj : m.heap.toJson? (Argument.nth args 1) = .ok j) :
    run .stringify args loc m =
      .ok (.ofOption (j.map fun j => .string (JsonWriter.write indent j))) m := by
  refine (Eval.bind_of_ok hi).trans ((Eval.bind_of_ok rfl).trans ?_)
  dsimp only
  rw [hj]
  cases j <;> rfl

theorem run_stringify_error {e : Unit} (hi : indentOf args loc m = .ok indent m)
    (hj : m.heap.toJson? (Argument.nth args 1) = .error e) :
    run .stringify args loc m = Eval.refuse DocumentReport.circular loc m := by
  refine (Eval.bind_of_ok hi).trans ((Eval.bind_of_ok rfl).trans ?_)
  dsimp only
  rw [hj]

end JsonFn

/-! ### The main statement -/

/-- **Cycles are found.** In any heap, the walk that printing a value is, and making a document of
it, comes to an end: it sees one outline, whose text is printed and whose document is made. There is
a mark in the outline, and no document but the error of `json.stringify`, exactly if some container
within the value is inside itself. If there is none, the outline is what plain recursion through the
value sees, which enters whatever it comes to. -/
theorem cycles_are_found (m : Machine) (v : Value) :
    ∃ o, m.heap.Outlines [] v o ∧ (∀ o', m.heap.Outlines [] v o' → o' = o) ∧
      m.heap.print v = o.text ∧ m.heap.toJson? v = o.document? ∧
      (o.Marked ↔ m.heap.Cyclic v) ∧
      (∀ args loc indent, Argument.nth args 1 = v → JsonFn.indentOf args loc m = .ok indent m →
        (JsonFn.run .stringify args loc m = Eval.refuse DocumentReport.circular loc m ↔
          m.heap.Cyclic v) ∧
        (¬ m.heap.Cyclic v → ∃ w, JsonFn.run .stringify args loc m = .ok w m)) ∧
      (¬ m.heap.Cyclic v → m.heap.Unfolds v o) := by
  obtain ⟨o, ho⟩ := m.heap.exists_outlines [] v
  have hmarked := ho.marked_iff
  refine ⟨o, ho, fun o' => ho.unique, ho.print_eq, ho.toJson?_eq, hmarked, ?_,
    fun hc => ho.unfolds (mt hmarked.mp hc)⟩
  rintro args loc indent rfl hindent
  rw [← hmarked, ← ho.document?_eq_error_iff, ← ho.toJson?_eq]
  cases hj : m.heap.toJson? (Argument.nth args 1) with
  | error _ =>
    rw [JsonFn.run_stringify_error hindent hj]
    exact ⟨iff_of_true rfl rfl, fun h => absurd rfl h⟩
  | ok j =>
    rw [JsonFn.run_stringify_ok hindent hj]
    exact ⟨iff_of_false (fun h => by cases h) (fun h => by cases h), fun _ => ⟨_, rfl⟩⟩

/-- An array inside itself, and an array that holds an empty one twice. -/
theorem cycles_are_found_twice :
    let m : Machine := { heap := { arrays := #[#[.array 0], #[.array 2, .array 2], #[]] } }
    m.heap.print (.array 0) = "[[...]]" ∧ m.heap.Cyclic (.array 0) ∧
      JsonFn.run .stringify [.array 0] default m =
        Eval.refuse DocumentReport.circular default m ∧
      m.heap.print (.array 1) = "[[], []]" ∧ ¬ m.heap.Cyclic (.array 1) := by
  intro m
  have hcyclic : m.heap.Cyclic (.array 0) :=
    ⟨.array 0, .refl, .single ⟨.array 0, rfl, List.mem_singleton_self _⟩⟩
  obtain ⟨_, _, _, _, _, _, hloop, _⟩ := cycles_are_found m (.array 0)
  obtain ⟨_, _, _, _, _, _, htwice, _⟩ := cycles_are_found m (.array 1)
  have hgiven : JsonFn.run .stringify [.array 1] default m = .ok (.string "[[],[]]") m := by rfl
  refine ⟨by rfl, hcyclic, (hloop [.array 0] default "" rfl rfl).1.mpr hcyclic, by rfl, ?_⟩
  rw [← (htwice [.array 1] default "" rfl rfl).1, hgiven]
  intro h
  cases h

end ScriptLang
