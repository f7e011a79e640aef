/-!
# Pieces of a text

Cutting a text at every occurrence of one character.

* `Pieces.split` gives the pieces, of which there is always at least one.
* Joining the pieces with the character gives the text back (`Pieces.intercalate_split`), and no
  piece holds the character (`Pieces.not_mem_of_mem_split`).
* The pieces of two texts with the character between them are those of the one and those of the
  other (`Pieces.split_append_cons`).
-/

namespace ScriptLang.Pieces

/-- The pieces between the occurrences of a character. -/
def split (c : Char) : List Char → List (List Char)
  | [] => [[]]
  | d :: ds =>
    match split c ds with
    | [] => [[d]]
    | p :: ps => if d = c then [] :: p :: ps else (d :: p) :: ps

/-- The pieces of a text, as texts. -/
def splitText (c : Char) (s : String) : List String := (split c s.toList).map String.ofList

attribute [local simp] split

theorem split_ne_nil (c : Char) (cs : List Char) : split c cs ≠ [] := by
  induction cs with
  | nil => simp
  | cons d ds ih =>
    rw [split]
    split
    · simp
    · split <;> simp

/-- Joining the pieces with the character gives the text back. -/
theorem intercalate_split (c : Char) (cs : List Char) : List.intercalate [c] (split c cs) = cs := by
  induction cs with
  | nil => rfl
  | cons d ds ih =>
    rw [split]
    split
    next h => exact absurd h (split_ne_nil c ds)
    next p ps h =>
      rw [h] at ih
      by_cases hd : d = c
      · simp only [hd, if_true]
        rw [← ih]
        cases ps <;> simp [List.intercalate, List.intersperse]
      · simp only [hd, if_false]
        rw [← ih]
        cases ps <;> simp [List.intercalate, List.intersperse]

/-- No piece holds the character. -/
theorem not_mem_of_mem_split {c : Char} {cs p : List Char} (h : p ∈ split c cs) : c ∉ p := by
  induction cs generalizing p with
  | nil => simp_all
  | cons d ds ih =>
    rw [split] at h
    split at h
    next hs => exact absurd hs (split_ne_nil c ds)
    next q qs hs =>
      rw [hs] at ih
      by_cases hd : d = c
      · -- A new piece begins, and it is empty.
        simp only [hd, if_true, List.mem_cons] at h
        rcases h with rfl | rfl | h
        · simp
        · exact ih (List.mem_cons_self ..)
        · exact ih (List.mem_cons_of_mem _ h)
      · simp only [hd, if_false, List.mem_cons] at h
        rcases h with rfl | h
        · intro hc
          rcases List.mem_cons.1 hc with e | hc
          · exact hd e.symm
          · exact ih (List.mem_cons_self ..) hc
        · exact ih (List.mem_cons_of_mem _ h)

theorem split_append_cons (c : Char) (cs ds : List Char) :
    split c (cs ++ c :: ds) = split c cs ++ split c ds := by
  induction cs with
  | nil =>
    rw [List.nil_append, split, split]
    cases h : split c ds with
    | nil => exact absurd h (split_ne_nil c ds)
    | cons p ps => simp
  | cons d cs ih =>
    rw [List.cons_append, split, split, ih]
    cases h : split c cs with
    | nil => exact absurd h (split_ne_nil c cs)
    | cons p ps => by_cases hd : d = c <;> simp [hd]

theorem split_of_not_mem {c : Char} {cs : List Char} (h : c ∉ cs) : split c cs = [cs] := by
  induction cs with
  | nil => rfl
  | cons d cs ih =>
    obtain ⟨hd, hcs⟩ := not_or.mp (mt List.mem_cons.mpr h)
    rw [split, ih hcs]
    simp [Ne.symm hd]

end ScriptLang.Pieces
