import ScriptLang.Proofs.IndexedMaps
import ScriptLang.Proofs.QuotedJson

/-!
# Spelled documents

A document has many texts, which differ in blanks. What these blanks are does not matter to the
reader, as long as they stand where they may.

* `JsonReader.Spells` — a text of a document, with a bound on the depth of containers. An element
  comes with its text and the blanks in front of it (`JsonReader.Item`), and so does a member
  (`JsonReader.Member`).
* `JsonReader.Reads` — the reader takes the text wherever it stands in front of something at which
  numbers end. The bound of the reader is on its steps: two for each character that is left are
  enough, one for the document and one for the loop around it.
* `JsonReader.elements_items` and `JsonReader.members_members` are the loops, for whatever elements
  and members are read where they stand.
* `JsonReader.Spells.reads` puts the two together, by induction on the text, and
  `JsonReader.Spells.read` is the main statement, for whole texts.
-/

namespace ScriptLang.JsonReader

open JsonCursor

variable {c : JsonCursor} {ch : Char} {r t : List Char}

/-! ### What may be written -/

/-- A text between quotes. -/
def quoted (s : String) : List Char := '"' :: (s.toList.flatMap JsonWriter.escape ++ ['"'])

/-- An element of an array, with the blanks in front of it and its text. -/
structure Item where
  before : List Char
  text : List Char
  value : JsonValue

/-- A member of an object, with the blanks in front of it, those in front of its value, and the text
of its value. -/
structure Member where
  before : List Char
  key : String
  gap : List Char
  text : List Char
  value : JsonValue

/-- The elements of an array: the rest of them, unless they are the first. -/
def itemsText (first : Bool) : List Item → List Char
  | [] => []
  | p :: ps => (if first then [] else [',']) ++ (p.before ++ (p.text ++ itemsText false ps))

/-- The members of an object: the rest of them, unless they are the first. -/
def membersText (first : Bool) : List Member → List Char
  | [] => []
  | p :: ps => (if first then [] else [',']) ++
      (p.before ++ (quoted p.key ++ ':' :: (p.gap ++ (p.text ++ membersText false ps))))

/-- **Spells.** A text of a document, in which containers are nested so deep at most. Blanks may
stand in front of elements, members, values of members and closing brackets. -/
inductive Spells : Nat → List Char → JsonValue → Prop
  | null {depth} : Spells depth ['n', 'u', 'l', 'l'] .null
  | yes {depth} : Spells depth ['t', 'r', 'u', 'e'] (.bool true)
  | no {depth} : Spells depth ['f', 'a', 'l', 's', 'e'] (.bool false)
  | number {depth cs y} (h : ReadsNumber cs y) : Spells depth cs (.number y)
  | string {depth} (s : String) : Spells depth (quoted s) (.string s)
  | array {depth close} {items : List Item} (hbefore : ∀ p ∈ items, AllBlank p.before)
    (hclose : AllBlank close) (hi : ∀ p ∈ items, Spells depth p.text p.value) :
    Spells (depth + 1) ('[' :: (itemsText true items ++ (close ++ [']'])))
      (.array (items.map (·.value)))
  | object {depth close} {members : List Member}
    (hkeys : (members.map (·.key)).Nodup)
    (hbefore : ∀ p ∈ members, AllBlank p.before ∧ AllBlank p.gap)
    (hclose : AllBlank close) (hm : ∀ p ∈ members, Spells depth p.text p.value) :
    Spells (depth + 1) ('\x7b' :: (membersText true members ++ (close ++ ['\x7d'])))
      (.object (members.map fun p => (p.key, p.value)))

/-- **Reads.** Where the text stands, the document is read, and nothing but the text is taken. -/
def Reads (depth : Nat) (cs : List Char) (j : JsonValue) : Prop :=
  ∀ (c : JsonCursor) (r : List Char) (fuel : Nat), EndsNumber r → c.rest = cs ++ r →
    2 * c.rest.length ≤ fuel → ∃ d, value (fuel + 1) depth c = .ok (j, d) ∧ d.rest = r

theorem endsNumber_cons (h : isNumeral ch = false) : EndsNumber (ch :: t) := by
  rintro _ ⟨⟩
  exact h

/-- A number ends at the blanks and the bracket that close a container. -/
theorem endsNumber_close {close : List Char} (hclose : AllBlank close) (h : isNumeral ch = false) :
    EndsNumber (close ++ ch :: t) := by
  cases close with
  | nil => exact endsNumber_cons h
  | cons b close =>
    refine endsNumber_cons ?_
    have hb : isBlank b = true := hclose b List.mem_cons_self
    cases hn : isNumeral b with
    | false => rfl
    | true =>
      rw [not_isBlank_of_isNumeral hn] at hb
      cases hb

theorem solid_cons (h : isBlank ch = false) : Solid (ch :: t) := by
  rintro _ ⟨⟩
  exact h

theorem skipBlanks_of_rest (hc : c.rest = ch :: t) (hch : isBlank ch = false) : c.skipBlanks = c :=
  skipBlanks_of_peek? fun ch' h' => by
    obtain rfl := Option.some.inj ((peek?_of_rest hc).symm.trans h')
    exact hch

/-- A document does not begin with a blank, or with a bracket that closes an array. -/
theorem Spells.exists_cons {depth : Nat} {cs : List Char} {j : JsonValue} (h : Spells depth cs j) :
    ∃ ch t, cs = ch :: t ∧ isBlank ch = false ∧ ch ≠ ']' := by
  cases h with
  | @number _ cs y h =>
    cases cs with
    | nil =>
      obtain ⟨d, hvalue, -⟩ := read_eq_ok h.read
      have hnone : (start (String.ofList [])).peek? = none := by decide
      rw [value_of_none hnone] at hvalue
      exact absurd hvalue (failNext_ne_ok _)
    | cons ch t =>
      have hch := h.numeral ch List.mem_cons_self
      refine ⟨ch, t, rfl, not_isBlank_of_isNumeral hch, ?_⟩
      rintro rfl
      exact absurd hch (by decide)
  | _ => exact ⟨_, _, rfl, by decide, by decide⟩

/-! ### Containers -/

/-- The end of an array. -/
theorem nextElement_close {close : List Char} (hclose : AllBlank close) (first : Bool)
    (hc : c.rest = close ++ ']' :: t) :
    nextElement first c = .ok none ∧ c.skipBlanks.advance.rest = t := by
  have hrest := rest_skipBlanks hc hclose (solid_cons (by decide))
  refine ⟨?_, rest_advance_of_rest hrest⟩
  unfold nextElement
  simp only [peek?_of_rest hrest]

/-- The first element of an array. -/
theorem nextElement_first {before : List Char} (hbefore : AllBlank before)
    (hch : isBlank ch = false) (hend : ch ≠ ']') (hc : c.rest = before ++ ch :: t) :
    ∃ d, nextElement true c = .ok (some d) ∧ d.rest = ch :: t := by
  have hrest := rest_skipBlanks hc hbefore (solid_cons hch)
  refine ⟨c.skipBlanks, ?_, hrest⟩
  simp [nextElement, peek?_of_rest hrest]

/-- Another element of an array. -/
theorem nextElement_comma {before : List Char} (hbefore : AllBlank before)
    (hch : isBlank ch = false) (hend : ch ≠ ']') (hc : c.rest = ',' :: (before ++ ch :: t)) :
    ∃ d, nextElement false c = .ok (some d) ∧ d.rest = ch :: t := by
  have hskip := skipBlanks_of_rest hc (by decide)
  have hrest := rest_skipBlanks (rest_advance_of_rest hc) hbefore (solid_cons hch)
  refine ⟨c.advance.skipBlanks, ?_, hrest⟩
  simp [nextElement, hskip, peek?_of_rest hc, peek?_of_rest hrest]

/-- The next element of an array, the first or another. -/
theorem nextElement_item {p : Item} (hbefore : AllBlank p.before) {depth : Nat}
    (hp : Spells depth p.text p.value) (first : Bool)
    (hc : c.rest = (if first then [] else [',']) ++ (p.before ++ (p.text ++ t))) :
    ∃ d, nextElement first c = .ok (some d) ∧ d.rest = p.text ++ t := by
  obtain ⟨ch, cs, hcs, hch, hend⟩ := hp.exists_cons
  rw [hcs, List.cons_append] at hc ⊢
  cases first with
  | true => exact nextElement_first hbefore hch hend hc
  | false => exact nextElement_comma hbefore hch hend hc

/-- One round of the loop over an array. -/
theorem elements_of_value {fuel depth : Nat} {first : Bool} {done : Array JsonValue}
    {d d' : JsonCursor} {j : JsonValue} (hnext : nextElement first c = .ok (some d))
    (hvalue : value fuel depth d = .ok (j, d')) :
    elements (fuel + 1) depth first done c = elements fuel depth false (done.push j) d' := by
  rw [elements, hnext]
  dsimp only
  rw [hvalue]

/-- A number ends behind an element. -/
theorem endsNumber_items {close : List Char} (hclose : AllBlank close) (items : List Item) :
    EndsNumber (itemsText false items ++ (close ++ ']' :: r)) := by
  cases items with
  | nil => exact endsNumber_close hclose (by decide)
  | cons p ps => exact endsNumber_cons (by decide)

theorem length_rest_le {d : JsonCursor} {ts : List Char} (hc : c.rest = ts ++ d.rest) :
    d.rest.length ≤ c.rest.length := by
  rw [hc, List.length_append]
  exact Nat.le_add_left ..

/-- The elements of an array, if each is read where it stands. -/
theorem elements_items {close : List Char} (hclose : AllBlank close) {depth spelled : Nat}
    (items : List Item)
    (hitems : ∀ p ∈ items, AllBlank p.before ∧ Spells spelled p.text p.value ∧
      Reads depth p.text p.value)
    (first : Bool) (done : Array JsonValue) {fuel : Nat}
    (hc : c.rest = itemsText first items ++ (close ++ ']' :: r))
    (hf : 2 * c.rest.length + 2 ≤ fuel) :
    ∃ d, elements fuel depth first done c = .ok (.array (done.toList ++ items.map (·.value)), d) ∧
      d.rest = r := by
  -- By induction on the elements; each of them leaves two steps of the bound at least.
  induction items generalizing first done c fuel with
  | nil =>
    obtain ⟨fuel, rfl⟩ : ∃ k, fuel = k + 1 := ⟨fuel - 1, by omega⟩
    obtain ⟨hnext, hrest⟩ := nextElement_close hclose first hc
    refine ⟨_, ?_, hrest⟩
    rw [elements, hnext, List.map_nil, List.append_nil]
  | cons p ps ih =>
    obtain ⟨fuel, rfl⟩ : ∃ k, fuel = k + 2 := ⟨fuel - 2, by omega⟩
    obtain ⟨hbefore, hspelled, hreads⟩ := hitems p List.mem_cons_self
    rw [itemsText, List.append_assoc, List.append_assoc, List.append_assoc] at hc
    -- `d` stands in front of the element, `d'` behind it.
    obtain ⟨d, hnext, hd⟩ := nextElement_item hbefore hspelled first hc
    have hle : d.rest.length ≤ c.rest.length :=
      length_rest_le (by rw [hc, hd, List.append_assoc])
    obtain ⟨d', hvalue, hd'⟩ := hreads d _ fuel (endsNumber_items hclose ps) hd (by omega)
    have hlt : d'.rest.length < d.rest.length := by
      obtain ⟨ch, cs, hcs, -⟩ := hspelled.exists_cons
      rw [hd, hd', hcs]
      simp only [List.length_append, List.length_cons]
      omega
    have hbound : 2 * d'.rest.length + 2 ≤ fuel + 1 := by omega
    obtain ⟨e, hrest, he⟩ := ih (fun q hq => hitems q (List.mem_cons_of_mem p hq)) false
      (done.push p.value) hd' hbound
    refine ⟨e, ?_, he⟩
    rw [elements_of_value hnext hvalue, hrest, Array.toList_push, List.append_assoc, List.map_cons]
    rfl

/-- The end of an object. -/
theorem nextMember_close {close : List Char} (hclose : AllBlank close) (first : Bool)
    (hc : c.rest = close ++ '\x7d' :: t) :
    nextMember first c = .ok none ∧ c.skipBlanks.advance.rest = t := by
  have hrest := rest_skipBlanks hc hclose (solid_cons (by decide))
  refine ⟨?_, rest_advance_of_rest hrest⟩
  unfold nextMember
  simp only [peek?_of_rest hrest]

/-- The next member of an object. -/
theorem nextMember_member {before : List Char} (hbefore : AllBlank before) (first : Bool)
    (hc : c.rest = (if first then [] else [',']) ++ (before ++ '"' :: t)) :
    ∃ d, nextMember first c = .ok (some d) ∧ d.rest = '"' :: t := by
  cases first with
  | true =>
    rw [if_pos rfl, List.nil_append] at hc
    have hrest := rest_skipBlanks hc hbefore (solid_cons (by decide))
    refine ⟨c.skipBlanks, ?_, hrest⟩
    simp [nextMember, peek?_of_rest hrest]
  | false =>
    rw [if_neg Bool.false_ne_true, List.singleton_append] at hc
    have hskip := skipBlanks_of_rest hc (by decide)
    have hrest := rest_skipBlanks (rest_advance_of_rest hc) hbefore (solid_cons (by decide))
    refine ⟨c.advance.skipBlanks, ?_, hrest⟩
    simp [nextMember, hskip, peek?_of_rest hc, peek?_of_rest hrest]

theorem colon_eq (hc : c.rest = ':' :: t) : ∃ d, colon c = .ok d ∧ d.rest = t := by
  have hskip := skipBlanks_of_rest hc (by decide)
  refine ⟨c.advance, ?_, rest_advance_of_rest hc⟩
  simp [colon, hskip, peek?_of_rest hc]

theorem value_skipBlanks (fuel depth : Nat) (c : JsonCursor) :
    value (fuel + 1) depth c.skipBlanks = value (fuel + 1) depth c := by
  rw [value, value, skipBlanks_skipBlanks]

/-- Blanks in front of a document are skipped. -/
theorem Reads.after_blanks {depth : Nat} {cs : List Char} {j : JsonValue} (h : Reads depth cs j)
    (hs : Solid cs) (hne : cs ≠ []) {gap : List Char} (hgap : AllBlank gap) (hr : EndsNumber r)
    (hc : c.rest = gap ++ (cs ++ r)) {fuel : Nat} (hf : 2 * c.rest.length ≤ fuel) :
    ∃ d, value (fuel + 1) depth c = .ok (j, d) ∧ d.rest = r := by
  have hsolid : Solid (cs ++ r) := by
    obtain ⟨ch, t, rfl⟩ := List.exists_cons_of_ne_nil hne
    exact solid_cons (hs ch rfl)
  have hrest := rest_skipBlanks hc hgap hsolid
  have hle : c.skipBlanks.rest.length ≤ c.rest.length := by
    rw [hrest, hc]
    simp only [List.length_append]
    omega
  rw [← value_skipBlanks]
  exact h _ r _ hr hrest (by omega)

/-- One round of the loop over an object. -/
theorem members_of_value {fuel depth : Nat} {first : Bool} {done : OrderedMap JsonValue}
    {d₁ d₂ d₃ d₄ : JsonCursor} {key : String} {j : JsonValue}
    (hnext : nextMember first c = .ok (some d₁)) (htext : text d₁.advance = .ok (key, d₂))
    (hcolon : colon d₂ = .ok d₃) (hvalue : value fuel depth d₃ = .ok (j, d₄)) :
    members (fuel + 1) depth first done c =
      members fuel depth false (done.insert key j) d₄ := by
  rw [members, hnext]
  simp only [htext, hcolon, hvalue]

/-- A number ends behind a member. -/
theorem endsNumber_members {close : List Char} (hclose : AllBlank close) (ms : List Member) :
    EndsNumber (membersText false ms ++ (close ++ '\x7d' :: r)) := by
  cases ms with
  | nil => exact endsNumber_close hclose (by decide)
  | cons p ps => exact endsNumber_cons (by decide)

/-- The members of an object, if the value of each is read where it stands. -/
theorem members_members {close : List Char} (hclose : AllBlank close) {depth spelled : Nat}
    (ms : List Member)
    (hms : ∀ p ∈ ms, (AllBlank p.before ∧ AllBlank p.gap) ∧ Spells spelled p.text p.value ∧
      Reads depth p.text p.value)
    (first : Bool) (done : OrderedMap JsonValue)
    (hkeys : (done.keys ++ ms.map (·.key)).Nodup) {fuel : Nat}
    (hc : c.rest = membersText first ms ++ (close ++ '\x7d' :: r))
    (hf : 2 * c.rest.length + 2 ≤ fuel) :
    ∃ d, members fuel depth first done c =
        .ok (.object (done.toList ++ ms.map fun p => (p.key, p.value)), d) ∧ d.rest = r := by
  -- By induction on the members. That their keys differ keeps an insertion from replacing a member
  -- read before, so each is appended.
  induction ms generalizing first done c fuel with
  | nil =>
    obtain ⟨fuel, rfl⟩ : ∃ k, fuel = k + 1 := ⟨fuel - 1, by omega⟩
    obtain ⟨hnext, hrest⟩ := nextMember_close hclose first hc
    refine ⟨_, ?_, hrest⟩
    rw [members, hnext, List.map_nil, List.append_nil]
  | cons p ps ih =>
    obtain ⟨fuel, rfl⟩ : ∃ k, fuel = k + 2 := ⟨fuel - 2, by omega⟩
    obtain ⟨⟨hbefore, hgap⟩, hspelled, hreads⟩ := hms p List.mem_cons_self
    obtain ⟨ch, cs, hcs, hch, -⟩ := hspelled.exists_cons
    have hnew : p.key ∉ done.keys := by
      intro hmem
      have hdisjoint := (List.nodup_append.mp hkeys).2.2
      exact hdisjoint p.key hmem p.key List.mem_cons_self rfl
    have hinsert := OrderedMap.toList_insert_of_not_mem hnew p.value
    have hkeys' : ((done.insert p.key p.value).keys ++ ps.map (·.key)).Nodup := by
      rw [OrderedMap.keys, hinsert, List.map_append, List.append_assoc]
      exact hkeys
    simp only [membersText, quoted, List.append_assoc, List.cons_append, List.nil_append] at hc
    -- The cursors stand at the quote, behind the key, behind the colon and behind the value.
    obtain ⟨d₁, hnext, hd₁⟩ := nextMember_member hbefore first hc
    obtain ⟨d₂, htext, hd₂⟩ := text_escapes p.key (rest_advance_of_rest hd₁)
    obtain ⟨d₃, hcolon, hd₃⟩ := colon_eq hd₂
    have hle₁ : d₁.rest.length ≤ c.rest.length :=
      length_rest_le (by rw [hc, hd₁, List.append_assoc])
    have hlt₃ : d₃.rest.length < d₁.rest.length := by
      rw [hd₁, hd₃]
      simp only [List.length_append, List.length_cons]
      omega
    have hbound : 2 * d₃.rest.length ≤ fuel := by omega
    obtain ⟨d₄, hvalue, hd₄⟩ := hreads.after_blanks (hcs ▸ solid_cons hch)
      (hcs ▸ List.cons_ne_nil ch cs) hgap (endsNumber_members hclose ps) hd₃ hbound
    have hle₄ : d₄.rest.length ≤ d₃.rest.length :=
      length_rest_le (by rw [hd₃, hd₄, List.append_assoc])
    have hbound' : 2 * d₄.rest.length + 2 ≤ fuel + 1 := by omega
    obtain ⟨e, hrest, he⟩ := ih (fun q hq => hms q (List.mem_cons_of_mem p hq)) false
      (done.insert p.key p.value) hkeys' hd₄ hbound'
    refine ⟨e, ?_, he⟩
    rw [members_of_value hnext htext hcolon hvalue, hrest, hinsert, List.append_assoc,
      List.map_cons, List.singleton_append]

/-! ### Documents -/

theorem word_eq {ws : List Char} (hc : c.rest = ws ++ t) :
    ∃ d, word ws c = .ok d ∧ d.rest = t := by
  induction ws generalizing c with
  | nil => exact ⟨c, rfl, hc⟩
  | cons w ws ih =>
    obtain ⟨d, hd, hrest⟩ := ih (rest_advance_of_rest hc)
    refine ⟨d, ?_, hrest⟩
    rw [word, peek?_of_rest hc]
    dsimp only
    rw [if_pos rfl, hd]

/-- A word is read, where the reader takes it for a document. -/
theorem reads_word {w : Char} {ws : List Char} {j : JsonValue} (hw : isBlank w = false)
    (hv : ∀ (fuel depth : Nat) (c : JsonCursor), c.skipBlanks = c → c.peek? = some w →
      value (fuel + 1) depth c = (word ws c.advance).map fun d => (j, d))
    (depth : Nat) : Reads depth (w :: ws) j := by
  intro c r fuel _ hc _
  obtain ⟨d, hword, hd⟩ := word_eq (rest_advance_of_rest hc)
  refine ⟨d, ?_, hd⟩
  rw [hv fuel depth c (skipBlanks_of_rest hc hw) (peek?_of_rest hc), hword]
  rfl

/-- A container is read after its bracket, within the bound that is left. -/
theorem bound_of_bracket (hc : c.rest = ch :: t) {fuel : Nat} (hf : 2 * c.rest.length ≤ fuel) :
    2 * c.advance.rest.length + 2 ≤ fuel := by
  rw [rest_advance_of_rest hc]
  rw [hc, List.length_cons] at hf
  omega

/-- **Spelled documents are read.** Where a text of a document stands, and a number would end behind
it, the document is read, if containers may be nested so deep. -/
theorem Spells.reads {depth : Nat} {cs : List Char} {j : JsonValue} (h : Spells depth cs j)
    {depth' : Nat} (hdepth : depth ≤ depth') : Reads depth' cs j := by
  -- By induction on the text. For a container the texts inside are read by the hypothesis, and the
  -- loop over them does the rest.
  induction h generalizing depth' with
  | number h =>
    intro c r fuel hr hc hf
    exact h.value hr hc fuel depth'
  | null | yes | no =>
    refine reads_word (by decide) (fun fuel depth c hskip hpeek => ?_) depth'
    unfold value
    simp only [hskip, hpeek]
  | string s =>
    intro c r fuel hr hc hf
    simp only [quoted, List.cons_append, List.append_assoc, List.nil_append] at hc
    obtain ⟨d, htext, hd⟩ := text_escapes s (rest_advance_of_rest hc)
    refine ⟨d, ?_, hd⟩
    unfold value
    simp only [skipBlanks_of_rest hc (by decide), peek?_of_rest hc, htext]
    rfl
  | @array depth close items hbefore hclose hi ih =>
    intro c r fuel hr hc hf
    obtain ⟨depth', rfl⟩ : ∃ k, depth' = k + 1 := ⟨depth' - 1, by omega⟩
    simp only [List.cons_append, List.append_assoc, List.nil_append] at hc
    have hitems := fun p hp => (⟨hbefore p hp, hi p hp, ih p hp (Nat.le_of_succ_le_succ hdepth)⟩ :
      AllBlank p.before ∧ Spells depth p.text p.value ∧ Reads depth' p.text p.value)
    obtain ⟨d, hd, hend⟩ := elements_items hclose items hitems true #[] (rest_advance_of_rest hc)
      (bound_of_bracket hc hf)
    refine ⟨d, ?_, hend⟩
    unfold value
    simp only [skipBlanks_of_rest hc (by decide), peek?_of_rest hc]
    rw [if_neg (Nat.succ_ne_zero _), Nat.add_sub_cancel, hd]
    rfl
  | @object depth close ms hkeys hbefore hclose hm ih =>
    intro c r fuel hr hc hf
    obtain ⟨depth', rfl⟩ : ∃ k, depth' = k + 1 := ⟨depth' - 1, by omega⟩
    simp only [List.cons_append, List.append_assoc, List.nil_append] at hc
    have hms := fun p hp => (⟨hbefore p hp, hm p hp, ih p hp (Nat.le_of_succ_le_succ hdepth)⟩ :
      (AllBlank p.before ∧ AllBlank p.gap) ∧ Spells depth p.text p.value ∧
        Reads depth' p.text p.value)
    obtain ⟨d, hd, hend⟩ := members_members hclose ms hms true .empty hkeys
      (rest_advance_of_rest hc) (bound_of_bracket hc hf)
    refine ⟨d, ?_, hend⟩
    unfold value
    simp only [skipBlanks_of_rest hc (by decide), peek?_of_rest hc]
    rw [if_neg (Nat.succ_ne_zero _), Nat.add_sub_cancel, hd]
    rfl

/-- A text that spells a document is read as it. -/
theorem Spells.read {s : String} {j : JsonValue} (h : Spells maxDepth s.toList j) :
    JsonReader.read s = .ok j := by
  have hstart : (start s).rest = s.toList ++ [] := (List.append_nil _).symm
  obtain ⟨d, hvalue, hend⟩ := h.reads (Nat.le_refl _) (start s) [] (2 * s.toList.length + 1) nofun
    hstart (Nat.le_succ _)
  have hskip : d.skipBlanks = d := skipBlanks_of_peek? fun ch hch => by simp [peek?, hend] at hch
  exact read_of_value hvalue (hskip.symm ▸ hend)

end ScriptLang.JsonReader
