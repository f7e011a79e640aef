import Mathlib
import ScriptLang.Regex.Replacement

/-!
# References in replacements

A replacement is written with the references `$&`, `$1` and `$<name>`. It is first written again
with all references in braces (`Replacement.braced`), and then the texts of the groups are put in
(`Replacement.expand`). So a text goes through two languages in which a dollar sign means something,
and what is written for the one has to be what is meant in the other, whatever follows it.

* `Replacement.Part` are the parts of a replacement, and `Replacement.Reads` says how it is read
  from left to right. Every replacement is read in exactly one way
  (`Replacement.existsUnique_reads`).
* Writing a replacement again is writing every part again (`Replacement.Reads.braced_eq`).
* The texts of groups are put into the parts one by one (`Replacement.expand_parts`): every part
  that is written with a brace ends in one, so no reference reaches from one part into the next
  (`Replacement.expand_append_closing`).
* A part means the same in both languages, unless it is a reference to a name that holds a closing
  brace: the braces around it then end too early. `references_keep_their_meaning` is the main
  statement.
-/

namespace ScriptLang

namespace Replacement

variable {group : List Char → List Char} {cs rest name digits : List Char} {c : Char}
  {parts : List Part}

attribute [local simp] part? Part.braced reference expand

/-! ### Reading a replacement -/

/-- What follows a dollar sign makes it more than a character. -/
inductive Begins : List Char → Prop
  | dollar {rest : List Char} : Begins ('$' :: rest)
  | whole {rest : List Char} : Begins ('&' :: rest)
  | number {d : Char} {rest : List Char} (hd : d.isDigit = true) : Begins (d :: rest)
  | name {rest : List Char} (hclose : '>' ∈ rest) : Begins ('<' :: rest)

/-- **Reading.** Two dollar signs are one. The digits of a number go on for as long as there are
any, and a name goes up to the nearest closing bracket. Any other dollar sign stands for itself, as
every other character does. -/
inductive Reads : List Char → List Part → Prop
  | nil : Reads [] []
  | dollar {rest : List Char} {parts : List Part} (h : Reads rest parts) :
    Reads ('$' :: '$' :: rest) (.char '$' :: parts)
  | whole {rest : List Char} {parts : List Part} (h : Reads rest parts) :
    Reads ('$' :: '&' :: rest) (.whole :: parts)
  | number {digits rest : List Char} {parts : List Part} (hne : digits ≠ [])
    (hdigits : ∀ d ∈ digits, d.isDigit = true) (hend : ∀ d ∈ rest.head?, d.isDigit = false)
    (h : Reads rest parts) : Reads ('$' :: (digits ++ rest)) (.number digits :: parts)
  | name {name rest : List Char} {parts : List Part} (hname : '>' ∉ name) (h : Reads rest parts) :
    Reads ('$' :: '<' :: (name ++ '>' :: rest)) (.name name :: parts)
  | other {rest : List Char} {parts : List Part} (hother : ¬ Begins rest) (h : Reads rest parts) :
    Reads ('$' :: rest) (.char '$' :: parts)
  | char {c : Char} {rest : List Char} {parts : List Part} (hc : c ≠ '$') (h : Reads rest parts) :
    Reads (c :: rest) (.char c :: parts)

/-- What a part stands for, given the texts of groups. A group is known by the text that refers to
it, which is its number or its name. -/
def Part.meaning (group : List Char → List Char) : Part → List Char
  | .char c => [c]
  | .whole => group ['0']
  | .number digits => group digits
  | .name letters => group letters

/-! ### What is taken from the beginning of a text -/

section Taking

variable {p : Char → Bool} {xs ys : List Char} {a : Char}

/-- What goes up to where a condition fails, and what remains. -/
theorem span_append (hxs : ∀ x ∈ xs, p x = true) (hys : ∀ y ∈ ys.head?, p y = false) :
    (xs ++ ys).takeWhile p = xs ∧ (xs ++ ys).dropWhile p = ys := by
  rw [List.takeWhile_append_of_pos hxs, List.dropWhile_append_of_pos hxs]
  cases ys with
  | nil => simp
  | cons y ys =>
    have hy : ¬ p y = true := by simpa using hys
    rw [List.takeWhile_cons_of_neg hy, List.dropWhile_cons_of_neg hy, List.append_nil]
    exact ⟨rfl, rfl⟩

/-- What goes up to the first occurrence of a character, and what remains. -/
theorem span_ne (ha : a ∉ xs) (ys : List Char) : (xs ++ a :: ys).takeWhile (· != a) = xs ∧
    (xs ++ a :: ys).dropWhile (· != a) = a :: ys := by
  refine span_append (fun x hx => ?_) (by simp)
  simpa using fun h : x = a => ha (h ▸ hx)

theorem span_append_cons (ha : p a = false) (xs ys : List Char) :
    (xs ++ a :: ys).takeWhile p = xs.takeWhile p ∧
      (xs ++ a :: ys).dropWhile p = xs.dropWhile p ++ a :: ys := by
  induction xs with
  | nil => simp [ha]
  | cons x xs ih =>
    rw [List.cons_append, List.takeWhile_cons, List.takeWhile_cons, List.dropWhile_cons,
      List.dropWhile_cons, ih.1, ih.2]
    split <;> exact ⟨rfl, rfl⟩

theorem eq_append_of_dropWhile_ne {b : Char} (h : xs.dropWhile (· != a) = b :: ys) :
    a ∉ xs.takeWhile (· != a) ∧ xs = xs.takeWhile (· != a) ++ a :: ys := by
  have hb : b = a := by
    have hstop := List.head_dropWhile_not (· != a) (l := xs) (by rw [h]; exact List.cons_ne_nil _ _)
    simpa [h] using hstop
  subst hb
  refine ⟨fun hmem => ?_, ?_⟩
  · simpa using List.mem_takeWhile_imp hmem
  · rw [← h, List.takeWhile_append_dropWhile]

theorem dropWhile_ne (ha : a ∉ xs) : xs.dropWhile (· != a) = [] := by
  rw [List.dropWhile_eq_nil_iff]
  intro x hx
  simpa using fun h : x = a => ha (h ▸ hx)

end Taking

/-! ### One part after the other -/

theorem part?_char (hc : c ≠ '$') : part? (c :: rest) = some (.char c, rest) := by
  rw [part?] <;> intros <;> contradiction

theorem part?_name (hname : '>' ∉ name) :
    part? ('$' :: '<' :: (name ++ '>' :: rest)) = some (.name name, rest) := by
  obtain ⟨htake, hdrop⟩ := span_ne hname rest
  rw [part?, htake, hdrop]

theorem part?_number (hne : digits ≠ []) (hdigits : ∀ d ∈ digits, d.isDigit = true)
    (hend : ∀ d ∈ rest.head?, d.isDigit = false) :
    part? ('$' :: (digits ++ rest)) = some (.number digits, rest) := by
  obtain ⟨d, ds, rfl⟩ := List.exists_cons_of_ne_nil hne
  have hd := hdigits d List.mem_cons_self
  obtain ⟨htake, hdrop⟩ := span_append hdigits hend
  rw [List.cons_append] at htake hdrop ⊢
  rw [part?, htake, hdrop]
  · rfl
  -- A digit is none of the three characters that mean something else.
  all_goals
    rintro _ ⟨⟩
    cases hd

theorem part?_other (h : ¬ Begins rest) : part? ('$' :: rest) = some (.char '$', rest) := by
  cases rest with
  | nil => rfl
  | cons c rest =>
    by_cases hopen : c = '<'
    · subst hopen
      rw [part?, dropWhile_ne fun hclose => h (.name hclose)]
    · have hdigit : ¬ c.isDigit = true := fun hd => h (.number hd)
      rw [part?, List.takeWhile_cons_of_neg hdigit]
      · rfl
      · rintro _ ⟨⟩
        exact h .dollar
      · rintro _ ⟨⟩
        exact h .whole
      · rintro _ ⟨⟩
        exact hopen rfl

/-- The first part is the one that is read, and what comes behind it is read in the same way. -/
theorem Reads.part?_eq (h : Reads cs parts) :
    match parts with
    | [] => part? cs = none
    | part :: parts => ∃ rest, part? cs = some (part, rest) ∧ Reads rest parts := by
  cases h with
  | nil => rfl
  | dollar h => exact ⟨_, rfl, h⟩
  | whole h => exact ⟨_, rfl, h⟩
  | number hne hdigits hend h => exact ⟨_, part?_number hne hdigits hend, h⟩
  | name hname h => exact ⟨_, part?_name hname, h⟩
  | other hother h => exact ⟨_, part?_other hother, h⟩
  | char hc h => exact ⟨_, part?_char hc, h⟩

theorem Reads.unique {parts' : List Part} (h : Reads cs parts) (h' : Reads cs parts') :
    parts' = parts := by
  induction parts generalizing cs parts' with
  | nil =>
    cases parts' with
    | nil => rfl
    | cons part' parts' =>
      obtain ⟨rest, hpart, -⟩ := h'.part?_eq
      cases h.part?_eq.symm.trans hpart
  | cons part parts ih =>
    obtain ⟨rest, hpart, hrest⟩ := h.part?_eq
    cases parts' with
    | nil => cases h'.part?_eq.symm.trans hpart
    | cons part' parts' =>
      obtain ⟨rest', hpart', hrest'⟩ := h'.part?_eq
      cases hpart.symm.trans hpart'
      rw [ih hrest hrest']

/-- Writing a replacement again is writing every part again. -/
theorem Reads.braced_eq (h : Reads cs parts) : braced cs = parts.flatMap Part.braced := by
  induction parts generalizing cs with
  | nil =>
    rw [braced]
    split
    next => rfl
    next hpart => cases h.part?_eq.symm.trans hpart
  | cons part parts ih =>
    obtain ⟨rest, hpart, hrest⟩ := h.part?_eq
    rw [braced]
    split
    next hnone => cases hpart.symm.trans hnone
    next hsome =>
      cases hpart.symm.trans hsome
      rw [ih hrest, List.flatMap_cons]

/-- A reference by number takes all the digits that follow. -/
theorem Reads.leadingNumber {d : Char} {rest : List Char} (hd : d.isDigit = true)
    (h : Reads ((d :: rest).dropWhile Char.isDigit) parts) :
    Reads ('$' :: d :: rest) (.number ((d :: rest).takeWhile Char.isDigit) :: parts) := by
  have hend : ∀ e ∈ ((d :: rest).dropWhile Char.isDigit).head?, e.isDigit = false := by
    have hstop := List.head?_dropWhile_not Char.isDigit (d :: rest)
    intro e he
    rw [Option.mem_def.mp he] at hstop
    simpa using hstop
  have hne : (d :: rest).takeWhile Char.isDigit ≠ [] := by simp [hd]
  have hdigits : ∀ e ∈ (d :: rest).takeWhile Char.isDigit, e.isDigit = true :=
    fun _ => List.mem_takeWhile_imp
  have hnumber := Reads.number hne hdigits hend h
  rwa [List.takeWhile_append_dropWhile] at hnumber

/-- A text that is not empty begins with a part. -/
theorem exists_first (hcs : cs ≠ []) :
    ∃ part rest, rest.length < cs.length ∧
      ∀ parts, Reads rest parts → Reads cs (part :: parts) := by
  obtain ⟨c, cs, rfl⟩ := List.exists_cons_of_ne_nil hcs
  by_cases hc : c = '$'
  · subst hc
    by_cases hbegins : Begins cs
    · cases hbegins with
      | @dollar rest => exact ⟨_, rest, by simp only [List.length_cons]; omega, fun _ => .dollar⟩
      | @whole rest => exact ⟨_, rest, by simp only [List.length_cons]; omega, fun _ => .whole⟩
      | @number d rest hd =>
        have hlength := length_dropWhile_le Char.isDigit (d :: rest)
        exact ⟨_, _, Nat.lt_succ_of_le hlength, fun _ => .leadingNumber hd⟩
      | @name rest hclose =>
        obtain ⟨name, behind, rfl, hname⟩ := List.eq_append_cons_of_mem hclose
        refine ⟨_, behind, ?_, fun _ => .name hname⟩
        simp only [List.length_cons, List.length_append]
        omega
    · -- A dollar sign that begins no reference stands for itself.
      exact ⟨_, cs, Nat.lt_succ_self _, fun _ => .other hbegins⟩
  · exact ⟨_, cs, Nat.lt_succ_self _, fun _ => .char hc⟩

/-- Every replacement is read in exactly one way. -/
theorem existsUnique_reads (cs : List Char) : ∃! parts, Reads cs parts := by
  induction hn : cs.length using Nat.strong_induction_on generalizing cs with
  | h n ih =>
    by_cases hcs : cs = []
    · exact ⟨[], hcs ▸ .nil, fun _ h => (hcs ▸ Reads.nil).unique h⟩
    · obtain ⟨part, rest, hrest, hreads⟩ := exists_first hcs
      obtain ⟨parts, hparts, -⟩ := ih rest.length (hn ▸ hrest) rest rfl
      exact ⟨part :: parts, hreads parts hparts, fun _ h => (hreads parts hparts).unique h⟩

/-! ### Putting in the texts of groups -/

theorem expand_char (hc : c ≠ '$') : expand group (c :: rest) = c :: expand group rest := by
  rw [expand] <;> intros <;> contradiction

theorem reference_append (name rest : List Char) :
    reference name ++ rest = '$' :: '\x7b' :: (name ++ '\x7d' :: rest) := by
  simp

theorem expand_reference (hname : '\x7d' ∉ name) (rest : List Char) :
    expand group (reference name ++ rest) = group name ++ expand group rest := by
  obtain ⟨htake, hdrop⟩ := span_ne hname rest
  rw [reference_append, expand, htake]
  split
  next h =>
    rw [hdrop] at h
    cases h
    rfl
  next h =>
    rw [hdrop] at h
    cases h

/-- A reference without braces ends in front of a closing brace. -/
theorem expand_bare (hdollar : ∀ r, cs = '$' :: r → False) (hopen : ∀ r, cs = '\x7b' :: r → False)
    (rest : List Char) :
    expand group ('$' :: (cs ++ '\x7d' :: rest)) =
      if (cs.takeWhile isReferenceChar).isEmpty then '$' :: expand group (cs ++ '\x7d' :: rest)
      else group (cs.takeWhile isReferenceChar) ++
        expand group (cs.dropWhile isReferenceChar ++ '\x7d' :: rest) := by
  have hclose : isReferenceChar '\x7d' = false := by decide
  obtain ⟨htake, hdrop⟩ := span_append_cons hclose cs rest
  rw [expand, htake, hdrop]
  all_goals
    intro r hr
    cases cs with
    | nil => cases hr
    | cons c cs =>
      obtain ⟨rfl, -⟩ := List.cons.inj hr
      first
      | exact hdollar cs rfl
      | exact hopen cs rfl

/-- **Behind a closing brace.** The brace ends the last reference before it, or stands for itself.
By induction on how the texts of groups are put into what comes before. -/
theorem expand_append_closing (cs rest : List Char) :
    expand group (cs ++ '\x7d' :: rest) =
      expand group (cs ++ ['\x7d']) ++ expand group rest := by
  have hclose : expand group ['\x7d'] = ['\x7d'] := by rw [expand_char (by decide), expand]
  fun_induction expand group cs with
  | case1 =>
    rw [List.nil_append, List.nil_append, expand_char (by decide), hclose]
    rfl
  | case2 cs ih =>
    simp only [List.cons_append] at ih ⊢
    rw [expand, expand, ih, List.cons_append]
  | case3 cs c behind h ih =>
    -- The reference ends within what comes before.
    obtain ⟨hname, hcs⟩ := eq_append_of_dropWhile_ne h
    have hshape (ys : List Char) : '$' :: '\x7b' :: cs ++ '\x7d' :: ys =
        reference (cs.takeWhile (· != '\x7d')) ++ (behind ++ '\x7d' :: ys) := by
      rw [reference_append, List.cons_append, List.cons_append]
      conv_lhs => rw [hcs]
      rw [List.append_assoc, List.cons_append]
    rw [hshape, hshape, expand_reference hname, expand_reference hname, ih, List.append_assoc]
  | case4 cs h ih =>
    -- It ends at the brace.
    have hname : '\x7d' ∉ cs := by
      rw [List.dropWhile_eq_nil_iff] at h
      exact fun hmem => by simpa using h _ hmem
    have hshape (ys : List Char) : '$' :: '\x7b' :: cs ++ '\x7d' :: ys = reference cs ++ ys :=
      (reference_append cs ys).symm
    rw [hshape, hshape, expand_reference hname, expand_reference hname, expand, List.append_nil]
  | case5 cs h₁ h₂ name h ih =>
    rw [List.cons_append, List.cons_append, expand_bare h₁ h₂, expand_bare h₁ h₂, if_pos h,
      if_pos h,
      ih, List.cons_append]
  | case6 cs h₁ h₂ name h ih =>
    rw [List.cons_append, List.cons_append, expand_bare h₁ h₂, expand_bare h₁ h₂, if_neg h,
      if_neg h,
      ih, List.append_assoc]
  | case7 c cs h₁ h₂ hc ih =>
    rw [List.cons_append, List.cons_append, expand_char hc, expand_char hc, ih, List.cons_append]

theorem expand_braced (part : Part) (rest : List Char) :
    expand group (part.braced ++ rest) = expand group part.braced ++ expand group rest := by
  have hreference (name : List Char) : expand group (reference name ++ rest) =
      expand group (reference name) ++ expand group rest := by
    have hshape (ys : List Char) : reference name ++ ys = '$' :: '\x7b' :: name ++ '\x7d' :: ys :=
      reference_append name ys
    rw [hshape, expand_append_closing, ← hshape, List.append_nil]
  cases part with
  | char c =>
    by_cases hc : c = '$'
    · subst hc
      simp
    · rw [Part.braced, if_neg hc, List.singleton_append, expand_char hc, expand_char hc, expand]
      rfl
  | whole => exact hreference _
  | number digits => exact hreference _
  | name name => exact hreference _

/-- **Part by part.** -/
theorem expand_parts (parts : List Part) :
    expand group (parts.flatMap Part.braced) = parts.flatMap fun p => expand group p.braced := by
  induction parts with
  | nil => rw [List.flatMap_nil, List.flatMap_nil, expand]
  | cons part parts ih => rw [List.flatMap_cons, List.flatMap_cons, expand_braced, ih]

/-! ### What parts mean -/

/-- A reference without a closing brace means the group of its text. -/
theorem expand_reference_self (hname : '\x7d' ∉ name) :
    expand group (reference name) = group name := by
  have hmeaning : expand group (reference name ++ []) = group name ++ expand group [] :=
    expand_reference hname []
  rwa [List.append_nil, expand, List.append_nil] at hmeaning

/-- A part means the same in both languages, unless it is a name with a closing brace. -/
theorem Reads.expand_eq_meaning (h : Reads cs parts)
    (hnames : ∀ name, .name name ∈ parts → '\x7d' ∉ name) :
    ∀ part ∈ parts, expand group part.braced = part.meaning group := by
  -- A dollar sign is written twice, and twice it stands for itself.
  have hchar (c : Char) : expand group (Part.char c).braced = [c] := by
    by_cases hc : c = '$'
    · subst hc
      simp
    · rw [Part.braced, if_neg hc, expand_char hc, expand]
  induction h with
  | nil => exact List.forall_mem_nil _
  | @number digits rest parts _ hdigits _ _ ih =>
    -- A number holds digits only.
    have hdigit : '\x7d' ∉ digits := fun hmem => by cases hdigits _ hmem
    rw [List.forall_mem_cons]
    exact ⟨expand_reference_self hdigit, ih fun name hname =>
      hnames name (List.mem_cons_of_mem _ hname)⟩
  | whole _ ih =>
    rw [List.forall_mem_cons]
    exact ⟨expand_reference_self (by decide), ih fun name hname =>
      hnames name (List.mem_cons_of_mem _ hname)⟩
  | name _ _ ih =>
    rw [List.forall_mem_cons]
    exact ⟨expand_reference_self (hnames _ List.mem_cons_self), ih fun name hname =>
      hnames name (List.mem_cons_of_mem _ hname)⟩
  | dollar _ ih | other _ _ ih | char _ _ ih =>
    rw [List.forall_mem_cons]
    exact ⟨hchar _, ih fun name hname => hnames name (List.mem_cons_of_mem _ hname)⟩

/-! ### Names with a closing brace -/

/-- If no group is empty, nothing that is not empty becomes so. -/
theorem expand_ne_nil (hgroup : ∀ name, group name ≠ []) (hcs : cs ≠ []) :
    expand group cs ≠ [] := by
  fun_cases expand group cs with
  | case1 => contradiction
  | case3 | case6 => exact List.append_ne_nil_of_left_ne_nil (hgroup _) _
  | case2 | case4 | case5 | case7 => exact List.cons_ne_nil _ _

/-- A name with a closing brace is cut at the brace, and the rest of it stands behind the group. -/
theorem expand_reference_cut {more : List Char} (hname : '\x7d' ∉ name) :
    expand group (reference (name ++ '\x7d' :: more)) =
      group name ++ expand group (more ++ ['\x7d']) := by
  have hshape : reference (name ++ '\x7d' :: more) = reference name ++ (more ++ ['\x7d']) := by
    simp
  rw [hshape, expand_reference hname]

/-- Where every group is one character, a part means one character. -/
theorem length_meaning (part : Part) : (part.meaning fun _ => [c]).length = 1 := by
  cases part <;> rfl

theorem length_expand_braced (part : Part) : 1 ≤ (expand (fun _ => [c]) part.braced).length := by
  have hne : part.braced ≠ [] := by
    cases part with
    | char d => by_cases hd : d = '$' <;> simp [hd]
    | whole | number | name => simp
  exact List.length_pos_of_ne_nil (expand_ne_nil (fun _ => List.cons_ne_nil _ _) hne)

/-- A name with a closing brace makes what is put in longer than what is meant. -/
theorem length_meaning_lt (hname : .name name ∈ parts) (hclose : '\x7d' ∈ name) :
    (parts.flatMap (Part.meaning fun _ => [c])).length <
      (parts.flatMap fun part => expand (fun _ => [c]) part.braced).length := by
  rw [List.length_flatMap, List.length_flatMap]
  refine List.sum_lt_sum _ _ (fun part _ => ?_) ⟨_, hname, ?_⟩
  · rw [length_meaning]
    exact length_expand_braced part
  · obtain ⟨before, more, rfl, hbefore⟩ := List.eq_append_cons_of_mem hclose
    have hmore : expand (fun _ => [c]) (more ++ ['\x7d']) ≠ [] :=
      expand_ne_nil (fun _ => List.cons_ne_nil _ _) (List.append_ne_nil_of_right_ne_nil _ (by simp))
    rw [length_meaning, Part.braced, expand_reference_cut hbefore, List.length_append]
    exact Nat.lt_add_of_pos_right (List.length_pos_of_ne_nil hmore)

end Replacement

open Replacement

/-- **References keep their meaning.** A replacement is read in one way. Once it is written with
braces, its references are replaced by what was meant, whatever the groups are, exactly if no name
in it holds a closing brace. -/
theorem references_keep_their_meaning (r : List Char) :
    ∃ parts, (∀ parts', Reads r parts' ↔ parts' = parts) ∧
      ((∀ group, expand group (braced r) = parts.flatMap (Part.meaning group)) ↔
        ∀ name, .name name ∈ parts → '\x7d' ∉ name) := by
  obtain ⟨parts, hparts, hunique⟩ := existsUnique_reads r
  have hbraced (group : List Char → List Char) :
      expand group (braced r) = parts.flatMap fun part => expand group part.braced := by
    rw [hparts.braced_eq, expand_parts]
  refine ⟨parts, fun parts' => ⟨hunique parts', fun h => h ▸ hparts⟩, ?kept, ?clear⟩
  case kept =>
    -- With a brace inside of a name, groups that are all long make the lengths differ.
    intro hkept name hname hclose
    have hlength := length_meaning_lt (c := '*') hname hclose
    rw [← hbraced, hkept] at hlength
    exact Nat.lt_irrefl _ hlength
  case clear =>
    intro hnames group
    rw [hbraced]
    exact List.flatMap_congr (hparts.expand_eq_meaning hnames)

end ScriptLang
