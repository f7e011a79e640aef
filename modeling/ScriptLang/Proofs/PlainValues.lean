import ScriptLang.Proofs.Bisimilarity
import ScriptLang.Proofs.Outlines
import ScriptLang.Proofs.WrittenDocuments

/-!
# Plain values

Null, truth values, finite numbers, texts, and arrays and objects of these have a document that
tells all that they hold.

* `Heap.Plain` — such a value, with a bound on the depth of its containers. It is not cyclic
  (`Heap.Plain.not_cyclic`), so making its document does not give up.
* `Heap.Shows` — a value and a document tell the same: the same scalars, the same keys in the same
  order. Numbers only have to be equal, since those of the document may have been read from texts.
* `Heap.Grows` — a heap has containers that another one did not have. What values show stays
  (`Heap.Shows.grows`).
* `Heap.Plain.toJson?` is the main statement: a plain value shows what is read of the text of its
  document, if its numbers are legible.
-/

namespace ScriptLang

open JsonReader (Legible)

namespace Heap

/-- **Plain.** A value that documents can tell, in which containers are nested so deep at most. Its
references lead to containers. -/
inductive Plain (h : Heap) : Nat → Value → Prop
  | null {depth} : Plain h depth .null
  | bool {depth} (b : Bool) : Plain h depth (.bool b)
  | number {depth x} (hx : Binary.isFinite x = true) : Plain h depth (.number x)
  | string {depth} (s : String) : Plain h depth (.string s)
  | array {depth r} (hr : r < h.arrays.size) (hi : ∀ w ∈ (h.array r).toList, Plain h depth w) :
    Plain h (depth + 1) (.array r)
  | object {depth r} (hr : r < h.objects.size) (hi : ∀ w ∈ (h.object r).values, Plain h depth w) :
    Plain h (depth + 1) (.object r)

/-- **Shows.** A value tells what a document does, up to numbers that are equal. -/
inductive Shows (h : Heap) : Value → JsonValue → Prop
  | null : Shows h .null .null
  | bool (b : Bool) : Shows h (.bool b) (.bool b)
  | number {x y : Float} (hxy : (x == y) = true) : Shows h (.number x) (.number y)
  | string (s : String) : Shows h (.string s) (.string s)
  | array {r} {ps : List (Value × JsonValue)} (hr : r < h.arrays.size)
    (hitems : (h.array r).toList = ps.map (·.1)) (hp : ∀ p ∈ ps, Shows h p.1 p.2) :
    Shows h (.array r) (.array (ps.map (·.2)))
  | object {r} {ps : List (String × Value × JsonValue)} (hr : r < h.objects.size)
    (hentries : (h.object r).toList = ps.map fun p => (p.1, p.2.1))
    (hp : ∀ p ∈ ps, Shows h p.2.1 p.2.2) :
    Shows h (.object r) (.object (ps.map fun p => (p.1, p.2.2)))

/-- **Grows.** The second heap has the containers of the first one, as they are there. -/
structure Grows (h h' : Heap) : Prop where
  arrays : h.arrays.size ≤ h'.arrays.size
  objects : h.objects.size ≤ h'.objects.size
  array : ∀ r < h.arrays.size, h'.array r = h.array r
  object : ∀ r < h.objects.size, h'.object r = h.object r

variable {h h' h'' : Heap} {v w : Value} {o : Outline} {j j' : JsonValue} {depth : Nat} {r : Ref}

/-! ### Growth -/

theorem Grows.refl (h : Heap) : h.Grows h :=
  ⟨Nat.le_refl _, Nat.le_refl _, fun _ _ => rfl, fun _ _ => rfl⟩

theorem Grows.trans (hg : h.Grows h') (hg' : h'.Grows h'') : h.Grows h'' where
  arrays := hg.arrays.trans hg'.arrays
  objects := hg.objects.trans hg'.objects
  array r hr := (hg'.array r (hr.trans_le hg.arrays)).trans (hg.array r hr)
  object r hr := (hg'.object r (hr.trans_le hg.objects)).trans (hg.object r hr)

theorem grows_allocArray (h : Heap) (items : Array Value) : h.Grows (h.allocArray items).2 where
  arrays := by simp [allocArray]
  objects := Nat.le_refl _
  array r hr := by simp [Heap.array, allocArray, Array.getElem?_push, Nat.ne_of_lt hr]
  object _ _ := rfl

theorem grows_allocObject (h : Heap) (entries : OrderedMap Value) :
    h.Grows (h.allocObject entries).2 where
  arrays := Nat.le_refl _
  objects := by simp [allocObject]
  array _ _ := rfl
  object r hr := by simp [Heap.object, allocObject, Array.getElem?_push, Nat.ne_of_lt hr]

theorem array_allocArray (h : Heap) (items : Array Value) :
    (h.allocArray items).2.array h.arrays.size = items := by
  simp [Heap.array, allocArray]

theorem object_allocObject (h : Heap) (entries : OrderedMap Value) :
    (h.allocObject entries).2.object h.objects.size = entries := by
  simp [Heap.object, allocObject]

/-- What is shown stays. -/
theorem Shows.grows (hs : h.Shows v j) (hg : h.Grows h') : h'.Shows v j := by
  induction hs with
  | null => exact .null
  | bool b => exact .bool b
  | number hxy => exact .number hxy
  | string s => exact .string s
  | array hr hitems _ ih => exact .array (hr.trans_le hg.arrays) (hg.array _ hr ▸ hitems) ih
  | object hr hentries _ ih =>
    exact .object (hr.trans_le hg.objects) (hg.object _ hr ▸ hentries) ih

/-! ### Documents of plain values -/

/-- A plain value is not inside itself. -/
theorem Plain.not_cyclic (hv : h.Plain depth v) : ¬ h.Cyclic v := by
  intro hcyclic
  induction hv with
  | null | bool _ | number _ | string _ =>
    obtain ⟨w, hw, _⟩ := hcyclic.inside
    exact not_contains rfl hw
  | array _ _ ih =>
    obtain ⟨w, ⟨_, hr, hw⟩, hcyclic⟩ := hcyclic.inside
    cases hr
    exact ih w hw hcyclic
  | object _ _ ih =>
    obtain ⟨w, ⟨_, hr, hw⟩, hcyclic⟩ := hcyclic.inside
    cases hr
    exact ih w hw hcyclic

/-- Results for all elements are a result for the list. -/
theorem mapM_eq_ok {ε α β : Type} {f : α → Except ε β} {g : α → β} {l : List α}
    (hf : ∀ a ∈ l, f a = .ok (g a)) : l.mapM f = .ok (l.map g) :=
  (mapM_congr hf).trans (List.mapM_pure ..)

/-- **Told.** The outline of a value has a document, and the value shows what is read of its text.
-/
structure Told (h : Heap) (depth : Nat) (v : Value) (o : Outline) (j j' : JsonValue) : Prop where
  document : o.document? = .ok (some j)
  rereads : j.Rereads depth j'
  shown : h.Shows v j'

theorem told_scalar (hv : v.document? = some j) (hread : j.Rereads depth j') (hs : h.Shows v j') :
    h.Told depth v (.scalar v) j j' :=
  ⟨by rw [Outline.document?, hv], hread, hs⟩

theorem told_array {inside : Value → Outline} {j j' : Value → JsonValue} (hr : r < h.arrays.size)
    (hi : ∀ w ∈ (h.array r).toList, h.Told depth w (inside w) (j w) (j' w)) :
    h.Told (depth + 1) (.array r) (.array ((h.array r).toList.map inside))
      (.array ((h.array r).toList.map j)) (.array ((h.array r).toList.map j')) where
  document := by
    have hitems : ((h.array r).toList.map inside).mapM (fun o => o.document?) =
        .ok ((h.array r).toList.map fun w => some (j w)) := by
      rw [List.mapM_map]
      exact mapM_eq_ok fun w hw => (hi w hw).document
    rw [Outline.document?, hitems]
    simp only [bind, Except.bind, pure, Except.pure, List.map_map, Function.comp_def,
      Option.getD_some]
  rereads := by
    have hp : ∀ p ∈ (h.array r).toList.map fun w => (j w, j' w), p.1.Rereads depth p.2 :=
      List.forall_mem_map.mpr fun w hw => (hi w hw).rereads
    simpa only [List.map_map, Function.comp_def] using JsonValue.Rereads.array hp
  shown := by
    have hp : ∀ p ∈ (h.array r).toList.map fun w => (w, j' w), h.Shows p.1 p.2 :=
      List.forall_mem_map.mpr fun w hw => (hi w hw).shown
    have hshown := Shows.array hr (by simp [Function.comp_def]) hp
    simpa only [List.map_map, Function.comp_def] using hshown

theorem told_object {inside : Value → Outline} {j j' : Value → JsonValue}
    (hr : r < h.objects.size)
    (hi : ∀ w ∈ (h.object r).values, h.Told depth w (inside w) (j w) (j' w)) :
    h.Told (depth + 1) (.object r) (.object ((h.object r).toList.map fun e => (e.1, inside e.2)))
      (.object ((h.object r).toList.map fun e => (e.1, j e.2)))
      (.object ((h.object r).toList.map fun e => (e.1, j' e.2))) where
  document := by
    have hmembers : ((h.object r).toList.map fun e => (e.1, inside e.2)).mapM
          (fun m => do return (m.1, ← m.2.document?)) =
        .ok ((h.object r).toList.map fun e => (e.1, some (j e.2))) := by
      rw [List.mapM_map]
      refine mapM_eq_ok fun e he => ?_
      change (do return (e.1, ← (inside e.2).document?)) = _
      rw [(hi e.2 (mem_values he)).document]
      rfl
    rw [Outline.document?, hmembers]
    simp only [bind, Except.bind, pure, Except.pure, List.filterMap_map, Function.comp_def,
      Option.map_some, List.filterMap_eq_map']
  rereads := by
    have hp : ∀ p ∈ (h.object r).toList.map fun e => (e.1, j e.2, j' e.2),
        p.2.1.Rereads depth p.2.2 :=
      List.forall_mem_map.mpr fun e he => (hi e.2 (mem_values he)).rereads
    -- The reader keeps all members, as no two of an object have one key.
    have hkeys : (((h.object r).toList.map fun e => (e.1, j e.2, j' e.2)).map (·.1)).Nodup := by
      rw [List.map_map]
      exact (h.object r).nodup_keys
    simpa only [List.map_map, Function.comp_def] using JsonValue.Rereads.object hkeys hp
  shown := by
    have hp : ∀ p ∈ (h.object r).toList.map fun e => (e.1, e.2, j' e.2), h.Shows p.2.1 p.2.2 :=
      List.forall_mem_map.mpr fun e he => (hi e.2 (mem_values he)).shown
    have hshown := Shows.object hr (by simp [Function.comp_def]) hp
    simpa only [List.map_map, Function.comp_def] using hshown

/-- **Plain values are told.** By induction on the value, along with plain recursion through it. -/
theorem Plain.told (hv : h.Plain depth v)
    (hnumbers : ∀ x, h.Reaches v (.number x) → Binary.isFinite x = true → Legible x)
    (ho : h.Unfolds v o) : ∃ j j', h.Told depth v o j j' := by
  -- The documents of what is inside are chosen for all of it at once.
  induction hv generalizing o with
  | null =>
    cases ho
    exact ⟨_, _, told_scalar rfl .null .null⟩
  | bool b =>
    cases ho
    exact ⟨_, _, told_scalar rfl (.bool b) (.bool b)⟩
  | @number _ x hx =>
    cases ho
    obtain ⟨y, hread, hy⟩ := hnumbers x .refl hx
    exact ⟨_, _, told_scalar rfl (.number hread hy) (.number (Value.number_symm hy))⟩
  | string s =>
    cases ho
    exact ⟨_, _, told_scalar rfl (.string s) (.string s)⟩
  | @array _ r hr _ ih =>
    cases ho with
    | scalar hv => cases hv
    | @array _ inside hi =>
      have hinside : ∀ w ∈ (h.array r).toList, ∃ j j', h.Told _ w (inside w) j j' := fun w hw =>
        ih w hw (fun x hx => hnumbers x (hx.head (contains_array hw))) (hi w hw)
      choose! j j' htold using hinside
      exact ⟨_, _, told_array hr htold⟩
  | @object _ r hr _ ih =>
    cases ho with
    | scalar hv => cases hv
    | @object _ inside hi =>
      have hinside : ∀ w ∈ (h.object r).values, ∃ j j', h.Told _ w (inside w) j j' := fun w hw =>
        ih w hw (fun x hx => hnumbers x (hx.head (contains_object hw))) (hi w hw)
      choose! j j' htold using hinside
      exact ⟨_, _, told_object hr htold⟩

/-- **Documents of plain values.** -/
theorem Plain.toJson? (hv : h.Plain depth v)
    (hnumbers : ∀ x, h.Reaches v (.number x) → Binary.isFinite x = true → Legible x) :
    ∃ j j', h.toJson? v = .ok (some j) ∧ j.Rereads depth j' ∧ h.Shows v j' := by
  obtain ⟨o, ho⟩ := h.exists_outlines [] v
  have hunfolds := ho.unfolds (mt ho.marked_iff.mp hv.not_cyclic)
  obtain ⟨j, j', htold⟩ := hv.told hnumbers hunfolds
  exact ⟨j, j', ho.toJson?_eq.trans htold.document, htold.rereads, htold.shown⟩

end Heap

end ScriptLang
