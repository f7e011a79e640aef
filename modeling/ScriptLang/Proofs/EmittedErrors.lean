import ScriptLang.Diagnostic.Basic

/-!
# Errors as a terminal is sent them

The error block is written twice: as a text (`Diagnostic.render`) and, for a terminal, in pieces
with their colours (`Diagnostic.lines`). Each of the two decides on its own which of the optional
parts there are, and only one of them may put in escape codes.

A message may hold escape codes of its own, so codes cannot be told from text by looking at what a
terminal is sent. `Marked` speaks about the codes that were put in: it relates a text to the one
with codes around some of its parts, and lists these parts.

* Lines in colours are the lines without colours, marked at the pieces that have a colour
  (`Paint.marked_block`).
* The pieces that have a colour are `Diagnostic.highlights`: headline and location, and the caret,
  the word before the advice and the headline of the call list where there are any
  (`Diagnostic.colored_lines`).
* Without colours, the lines are the block (`Diagnostic.block_lines`).
* `emitted_errors_agree` is the main statement.
-/

namespace ScriptLang

/-! ### Marks -/

/-- **Marked.** The second text is the first one with escape codes around some of its parts. These
parts are listed from left to right, each with its colour. -/
inductive Marked : List (Paint × String) → String → String → Prop
  | nil : Marked [] "" ""
  | text (s : String) {marks : List (Paint × String)} {plain sent : String}
    (h : Marked marks plain sent) : Marked marks (s ++ plain) (s ++ sent)
  | mark (p : Paint) (s : String) {marks : List (Paint × String)} {plain sent : String}
    (h : Marked marks plain sent) :
    Marked ((p, s) :: marks) (s ++ plain) (p.sequence ++ s ++ Paint.reset ++ sent)

theorem Marked.append {marks marks' : List (Paint × String)} {plain plain' sent sent' : String}
    (h : Marked marks plain sent) (h' : Marked marks' plain' sent') :
    Marked (marks ++ marks') (plain ++ plain') (sent ++ sent') := by
  induction h with
  | nil => simpa using h'
  | text s _ ih =>
    rw [String.append_assoc, String.append_assoc]
    exact ih.text s
  | mark p s _ ih =>
    rw [String.append_assoc, String.append_assoc]
    exact ih.mark p s

namespace Paint

variable (pieces : List (Paint × String)) (lines lines' : List (List (Paint × String)))

/-- The pieces that have a colour. -/
def colored : List (Paint × String) := pieces.filter (·.1 ≠ .plain)

@[simp] theorem apply_false (p : Paint) (s : String) : p.apply false s = s := rfl

/-- A line in colours is the line without colours, marked at the pieces that have a colour. -/
theorem marked_line :
    Marked (colored pieces) (String.join (pieces.map fun s => s.1.apply false s.2))
    (String.join (pieces.map fun s => s.1.apply true s.2)) := by
  induction pieces with
  | nil => exact .nil
  | cons piece pieces ih =>
    obtain ⟨p, s⟩ := piece
    simp only [List.map_cons, String.join_cons, apply_false] at ih ⊢
    by_cases hp : p = .plain
    · subst hp
      exact ih.text s
    · have hcolored : colored ((p, s) :: pieces) = (p, s) :: colored pieces :=
        List.filter_cons_of_pos (by simpa using hp)
      have happly : p.apply true s = p.sequence ++ s ++ reset := by
        simp [apply, hp]
      rw [hcolored, happly]
      exact ih.mark p s

theorem block_cons (colors : Bool) :
    block colors (pieces :: lines) =
      String.join (pieces.map fun s => s.1.apply colors s.2) ++ ("\n" ++ block colors lines) := by
  rw [block, List.map_cons, String.join_cons, String.append_assoc]
  rfl

theorem block_append (colors : Bool) :
    block colors (lines ++ lines') = block colors lines ++ block colors lines' := by
  rw [block, List.map_append, String.join_append]
  rfl

/-- Lines in colours are the lines without colours, marked at the pieces that have a colour. -/
theorem marked_block : Marked (lines.flatMap colored) (block false lines) (block true lines) := by
  induction lines with
  | nil => exact .nil
  | cons line lines ih =>
    rw [List.flatMap_cons, block_cons, block_cons]
    exact (marked_line line).append (ih.text "\n")

end Paint

namespace Diagnostic

open Paint

variable (d : Diagnostic)

/-- Whether there is a caret: there is a quotation, and it is not blank. -/
def hasCaret : Bool := d.snippet.any fun line => !(Blank.trim line).isEmpty

/-- **The parts in colours.** The headline and the location, and those of the other three that the
error has a use for. -/
def highlights : List (Paint × String) :=
  [(.error, d.headline), (.place, d.location.display)]
    ++ (if d.hasCaret then [(.error, "^")] else [])
    ++ (if d.suggestion.isSome then [(.help, "Suggestion:")] else [])
    ++ (if d.stack = [] then [] else [(.strong, "Mimo Stack:")])

theorem colored_lines : d.lines.flatMap colored = d.highlights := by
  -- Each of the parts that may be missing is there in both or in neither.
  have hquotation : d.quotationLines.flatMap colored =
      if d.hasCaret then [(.error, "^")] else [] := by
    rw [quotationLines, hasCaret]
    cases d.snippet with
    | none => rfl
    | some line =>
      cases h : (Blank.trim line).isEmpty <;> simp [h, colored]
  have hadvice : d.adviceLines.flatMap colored =
      if d.suggestion.isSome then [(.help, "Suggestion:")] else [] := by
    rw [adviceLines]
    cases d.suggestion <;> rfl
  have hcalls : d.callLines.flatMap colored =
      if d.stack = [] then [] else [(.strong, "Mimo Stack:")] := by
    rw [callLines]
    cases d.stack with
    | nil => rfl
    | cons f frames => simp [colored]
  rw [lines, List.flatMap_append, List.flatMap_append, List.flatMap_append, hquotation, hadvice,
    hcalls]
  rfl

/-- Without colours, a terminal is sent the block. -/
theorem block_lines : block false d.lines = d.render := by
  -- Part by part, as both decide on their own which parts there are.
  have hquotation : block false d.quotationLines = d.quotation := by
    rw [quotationLines, quotation]
    cases d.snippet with
    | none => rfl
    | some line =>
      cases h : (Blank.trim line).isEmpty <;>
        simp [h, block, toString, ← String.toList_inj]
  have hadvice : block false d.adviceLines = d.advice := by
    rw [adviceLines, advice]
    cases d.suggestion with
    | none => rfl
    | some text => simp [block, toString, ← String.toList_inj]
  have hcalls : block false d.callLines = d.callList := by
    rw [callLines, callList]
    cases d.stack with
    | nil => rfl
    | cons f frames => simp [block, toString, ← String.toList_inj, List.flatMap_map]
  rw [lines, block_append, block_append, block_append, hquotation, hadvice, hcalls, render]
  simp [block, toString, ← String.toList_inj]

end Diagnostic

/-- **Emitted errors agree with the block.** Without colours, a terminal is sent the error block as
it is. With colours, it is sent the block with escape codes around the headline, the location, the
caret, the word before the advice and the headline of the call list, and around nothing else. -/
theorem emitted_errors_agree (d : Diagnostic) (mode : ColorMode) (terminal : Bool) :
    if mode.enabled terminal then Marked d.highlights d.render (d.emit mode terminal)
    else d.emit mode terminal = d.render := by
  rw [Diagnostic.emit]
  cases mode.enabled terminal with
  | false => exact d.block_lines
  | true =>
    have hmarked := Paint.marked_block d.lines
    rwa [d.colored_lines, d.block_lines] at hmarked

end ScriptLang
