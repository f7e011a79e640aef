import ScriptLang.Proofs.LegibleNumbers
import ScriptLang.Proofs.SpelledDocuments

/-!
# Written documents

What is written of a document spells it, or rather the document that it becomes by that: its numbers
are replaced by what is read of their texts.

* `JsonValue.Rereads` — two documents that differ in their numbers at most, where the numbers of the
  second one are read from the texts of those of the first one.
* `JsonWriter.spells_compact` and `JsonWriter.spells_pretty` — the two ways of writing. They differ
  in the blanks that are put in front of elements, members, values and closing brackets.
* `JsonValue.Rereads.read_write` is the main statement, for any indentation by blanks.
-/

namespace ScriptLang

open JsonReader JsonCursor

/-- **Rereads.** The second document is what is read of the first one's text, if numbers are read
from their texts as equal numbers. Containers are nested so deep at most, and no key is repeated. -/
inductive JsonValue.Rereads : Nat → JsonValue → JsonValue → Prop
  | null {depth} : Rereads depth .null .null
  | bool {depth} (b : Bool) : Rereads depth (.bool b) (.bool b)
  | number {depth x y} (h : ReadsNumber (JsonWriter.number x).toList y) (hy : (y == x) = true) :
    Rereads depth (.number x) (.number y)
  | string {depth} (s : String) : Rereads depth (.string s) (.string s)
  | array {depth} {ps : List (JsonValue × JsonValue)} (hp : ∀ p ∈ ps, Rereads depth p.1 p.2) :
    Rereads (depth + 1) (.array (ps.map (·.1))) (.array (ps.map (·.2)))
  | object {depth} {ps : List (String × JsonValue × JsonValue)} (hkeys : (ps.map (·.1)).Nodup)
    (hp : ∀ p ∈ ps, Rereads depth p.2.1 p.2.2) :
    Rereads (depth + 1) (.object (ps.map fun p => (p.1, p.2.1)))
      (.object (ps.map fun p => (p.1, p.2.2)))

namespace JsonWriter

theorem toList_quote (s : String) : (quote s).toList = quoted s := by
  simp [quote, quoted]

/-! ### Lists of parts -/

theorem itemsText_cons_cons (p q : Item) (ps : List Item) :
    itemsText true (p :: q :: ps) =
      p.before ++ (p.text ++ ',' :: itemsText true (q :: ps)) := rfl

theorem membersText_cons_cons (p q : Member) (ps : List Member) :
    membersText true (p :: q :: ps) =
      p.before ++ (quoted p.key ++ ':' :: (p.gap ++ (p.text ++ ',' ::
        membersText true (q :: ps)))) := rfl

theorem compactItems_eq (ps : List (JsonValue × JsonValue)) :
    (compactItems (ps.map (·.1))).toList =
      itemsText true (ps.map fun p => ⟨[], (compact p.1).toList, p.2⟩) := by
  induction ps with
  | nil => rfl
  | cons p ps ih =>
    cases ps with
    | nil => simp [compactItems, itemsText]
    | cons q ps =>
      simp only [List.map_cons] at ih ⊢
      rw [compactItems, itemsText_cons_cons, ← ih]
      · simp
      · simp

theorem prettyItems_eq (indent : String) (level : Nat) (ps : List (JsonValue × JsonValue)) :
    (prettyItems indent level (ps.map (·.1))).toList =
      itemsText true (ps.map fun p =>
        ⟨(lineStart indent level).toList, (pretty indent level p.1).toList, p.2⟩) := by
  induction ps with
  | nil => rfl
  | cons p ps ih =>
    cases ps with
    | nil => simp [prettyItems, itemsText]
    | cons q ps =>
      simp only [List.map_cons] at ih ⊢
      rw [prettyItems, itemsText_cons_cons, ← ih]
      · simp
      · simp

theorem compactMembers_eq (ps : List (String × JsonValue × JsonValue)) :
    (compactMembers (ps.map fun p => (p.1, p.2.1))).toList =
      membersText true (ps.map fun p => ⟨[], p.1, [], (compact p.2.1).toList, p.2.2⟩) := by
  induction ps with
  | nil => rfl
  | cons p ps ih =>
    cases ps with
    | nil => simp [compactMembers, membersText, toList_quote]
    | cons q ps =>
      simp only [List.map_cons] at ih ⊢
      rw [compactMembers, membersText_cons_cons, ← ih]
      · simp [toList_quote]
      · simp

theorem prettyMembers_eq (indent : String) (level : Nat)
    (ps : List (String × JsonValue × JsonValue)) :
    (prettyMembers indent level (ps.map fun p => (p.1, p.2.1))).toList =
      membersText true (ps.map fun p =>
        ⟨(lineStart indent level).toList, p.1, [' '], (pretty indent level p.2.1).toList,
          p.2.2⟩) := by
  induction ps with
  | nil => rfl
  | cons p ps ih =>
    cases ps with
    | nil => simp [prettyMembers, membersText, toList_quote]
    | cons q ps =>
      simp only [List.map_cons] at ih ⊢
      rw [prettyMembers, membersText_cons_cons, ← ih]
      · simp [toList_quote]
      · simp

/-! ### Documents -/

variable {depth : Nat} {j j' : JsonValue} {indent : String}

/-- The beginning of a line is blank, if the indentation is. -/
theorem allBlank_lineStart (h : AllBlank indent.toList) (level : Nat) :
    AllBlank (lineStart indent level).toList := by
  intro ch hch
  rw [lineStart, String.toList_append, List.mem_append, String.toList_join,
    List.mem_flatMap] at hch
  rcases hch with hch | ⟨s, hs, hch⟩
  · rw [show "\n".toList = ['\n'] by rfl, List.mem_singleton] at hch
    rw [hch]
    decide
  · rw [List.eq_of_mem_replicate hs] at hch
    exact h ch hch

theorem spells_scalar {cs : List Char} (h : j.Rereads depth j') (hcs : cs = (scalar j).toList) :
    (∀ items, j ≠ .array items) → (∀ members, j ≠ .object members) → Spells depth cs j' := by
  subst hcs
  intro harray hobject
  cases h with
  | null => exact .null
  | bool b =>
    cases b with
    | true => exact .yes
    | false => exact .no
  | number h _ => exact .number h
  | string s =>
    rw [scalar, toList_quote]
    exact .string s
  | array _ => exact absurd rfl (harray _)
  | object _ _ => exact absurd rfl (hobject _)

theorem allBlank_nil : AllBlank [] := nofun

theorem spells_array (text : JsonValue → List Char) {before close : List Char}
    (hbefore : AllBlank before) (hclose : AllBlank close) {ps : List (JsonValue × JsonValue)}
    (hp : ∀ p ∈ ps, Spells depth (text p.1) p.2) :
    Spells (depth + 1)
      ('[' :: (itemsText true (ps.map fun p => ⟨before, text p.1, p.2⟩) ++ (close ++ [']'])))
      (.array (ps.map (·.2))) := by
  have h := @Spells.array depth close (ps.map fun p => ⟨before, text p.1, p.2⟩)
    (List.forall_mem_map.mpr fun _ _ => hbefore) hclose (List.forall_mem_map.mpr hp)
  rwa [List.map_map] at h

theorem spells_object (text : JsonValue → List Char) {before gap close : List Char}
    (hbefore : AllBlank before) (hgap : AllBlank gap) (hclose : AllBlank close)
    {ps : List (String × JsonValue × JsonValue)} (hkeys : (ps.map (·.1)).Nodup)
    (hp : ∀ p ∈ ps, Spells depth (text p.2.1) p.2.2) :
    Spells (depth + 1)
      ('\x7b' :: (membersText true (ps.map fun p => ⟨before, p.1, gap, text p.2.1, p.2.2⟩) ++
        (close ++ ['\x7d'])))
      (.object (ps.map fun p => (p.1, p.2.2))) := by
  have hkeys' : ((ps.map fun p => (⟨before, p.1, gap, text p.2.1, p.2.2⟩ : Member)).map
      (·.key)).Nodup := by
    rwa [List.map_map]
  have h := @Spells.object depth close (ps.map fun p => ⟨before, p.1, gap, text p.2.1, p.2.2⟩)
    hkeys' (List.forall_mem_map.mpr fun _ _ => ⟨hbefore, hgap⟩) hclose (List.forall_mem_map.mpr hp)
  rwa [List.map_map] at h

/-- **Without blanks.** -/
theorem spells_compact (h : j.Rereads depth j') : Spells depth (compact j).toList j' := by
  induction h with
  | @array depth ps _ ih =>
    have hspells := spells_array (fun j => (compact j).toList) allBlank_nil allBlank_nil ih
    rw [← compactItems_eq] at hspells
    simpa [compact] using hspells
  | @object depth ps hkeys _ ih =>
    have hspells := spells_object (fun j => (compact j).toList) allBlank_nil allBlank_nil
      allBlank_nil hkeys ih
    rw [← compactMembers_eq] at hspells
    simpa [compact] using hspells
  | null => exact spells_scalar .null rfl nofun nofun
  | bool b => exact spells_scalar (.bool b) rfl nofun nofun
  | number h hy => exact spells_scalar (.number h hy) rfl nofun nofun
  | string s => exact spells_scalar (.string s) rfl nofun nofun

/-- **In lines.** An empty container has no lines, and is written as without blanks. -/
theorem spells_pretty (hindent : AllBlank indent.toList) (h : j.Rereads depth j') (level : Nat) :
    Spells depth (pretty indent level j).toList j' := by
  have hline := allBlank_lineStart hindent
  have hgap : AllBlank [' '] := by
    intro ch hch
    rw [List.mem_singleton.mp hch]
    decide
  -- By induction on the document; what is inside of a container is written one level further in.
  induction h generalizing level with
  | @array depth ps _ ih =>
    cases ps with
    | nil =>
      have hspells := @spells_compact _ _ _ (@JsonValue.Rereads.array depth [] nofun)
      simpa [pretty, compact, compactItems] using hspells
    | cons p ps =>
      have hspells := spells_array (fun j => (pretty indent (level + 1) j).toList)
        (hline (level + 1)) (hline level) fun q hq => ih q hq (level + 1)
      rw [← prettyItems_eq] at hspells
      simpa [pretty] using hspells
  | @object depth ps hkeys _ ih =>
    cases ps with
    | nil =>
      have hspells := @spells_compact _ _ _ (@JsonValue.Rereads.object depth [] hkeys nofun)
      simpa [pretty, compact, compactMembers] using hspells
    | cons p ps =>
      have hspells := spells_object (fun j => (pretty indent (level + 1) j).toList)
        (hline (level + 1)) hgap (hline level) hkeys fun q hq => ih q hq (level + 1)
      rw [← prettyMembers_eq] at hspells
      simpa [pretty] using hspells
  | null => exact spells_scalar .null rfl nofun nofun
  | bool b => exact spells_scalar (.bool b) rfl nofun nofun
  | number h hy => exact spells_scalar (.number h hy) rfl nofun nofun
  | string s => exact spells_scalar (.string s) rfl nofun nofun

/-- **What is written spells the document.** -/
theorem spells_write (hindent : AllBlank indent.toList) (h : j.Rereads depth j') :
    Spells depth (write indent j).toList j' := by
  unfold write
  split
  · exact spells_compact h
  · exact spells_pretty hindent h 0

end JsonWriter

/-- **Documents come back.** What is written of a document is read as the document that differs in
equal numbers at most. -/
theorem JsonValue.Rereads.read_write {j j' : JsonValue} (h : j.Rereads maxDepth j')
    {indent : String} (hindent : AllBlank indent.toList) :
    JsonReader.read (JsonWriter.write indent j) = .ok j' :=
  (JsonWriter.spells_write hindent h).read

end ScriptLang
