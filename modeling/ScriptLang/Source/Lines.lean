import ScriptLang.Source.Span

/-!
# Lines and positions

The lines of a source text, the positions of its characters, and the collection of source texts
that error messages quote from.

* `Lines.split` cuts a text at its line feeds; `Lines.line?` is one line of it, counted from one and
  without a carriage return at its end.
* A `Position` is what a reader needs to know about a place: byte offset, line and column.
  `Position.advance` moves it over one character.
* `SourceMap` keeps texts by file name; adding a file again replaces its text.
-/

namespace ScriptLang

namespace Lines

/-- The pieces of a text between its line feeds. There is always at least one. -/
def split : List Char → List (List Char)
  | [] => [[]]
  | c :: cs =>
    match split cs with
    | [] => [[c]]
    | l :: ls => if c = '\n' then [] :: l :: ls else (c :: l) :: ls

/-- A line without the carriage return that may end it. -/
def dropReturn (l : List Char) : List Char :=
  if l.getLast? = some '\r' then l.dropLast else l

/-- Line `n` of a text, counted from one, without its terminator. -/
def line? (source : String) (n : Nat) : Option String :=
  match n with
  | 0 => none
  | i + 1 => (split source.toList)[i]?.map fun l => String.ofList (dropReturn l)

/-- A text has at least one line. -/
theorem split_ne_nil (cs : List Char) : split cs ≠ [] := by
  induction cs with
  | nil => simp [split]
  | cons c cs ih =>
    rw [split]
    split
    · simp
    · split <;> simp

/-- Joining the lines with line feeds gives the text back. -/
theorem intercalate_split (cs : List Char) : List.intercalate ['\n'] (split cs) = cs := by
  induction cs with
  | nil => rfl
  | cons c cs ih =>
    rw [split]
    split
    next h => exact absurd h (split_ne_nil cs)
    next l ls h =>
      rw [h] at ih
      by_cases hc : c = '\n'
      · simp only [hc, if_true]
        rw [← ih]
        cases ls <;> simp [List.intercalate, List.intersperse]
      · simp only [hc, if_false]
        rw [← ih]
        cases ls <;> simp [List.intercalate, List.intersperse]

end Lines

/-- A place between two characters of a text. -/
structure Position where
  /-- Number of bytes before the place. -/
  offset : Nat
  /-- One more than the number of line feeds before the place. -/
  line : Nat
  /-- One more than the number of characters since the last line feed. -/
  column : Nat
  deriving DecidableEq, Repr, Inhabited

namespace Position

/-- The place before the first character. -/
def start : Position := ⟨0, 1, 1⟩

/-- The place after one more character. -/
def advance (p : Position) (c : Char) : Position :=
  if c = '\n' then ⟨p.offset + c.utf8Size, p.line + 1, 1⟩
  else ⟨p.offset + c.utf8Size, p.line, p.column + 1⟩

/-- The place after some more characters. -/
def advanceAll (p : Position) (cs : List Char) : Position := cs.foldl advance p

@[simp] theorem advanceAll_nil (p : Position) : p.advanceAll [] = p := rfl

@[simp] theorem advanceAll_cons (p : Position) (c : Char) (cs : List Char) :
    p.advanceAll (c :: cs) = (p.advance c).advanceAll cs := rfl

theorem advanceAll_append (p : Position) (cs ds : List Char) :
    p.advanceAll (cs ++ ds) = (p.advanceAll cs).advanceAll ds := List.foldl_append

end Position

/-- Source texts by file name. -/
structure SourceMap where
  /-- File names with their texts, the latest addition first. -/
  files : List (String × String)
  deriving Inhabited

namespace SourceMap

/-- No texts. -/
def empty : SourceMap := ⟨[]⟩

/-- Records the text of `file`, in place of an earlier one. -/
def add (m : SourceMap) (file source : String) : SourceMap :=
  ⟨(file, source) :: m.files.filter (·.1 != file)⟩

/-- The text of `file`. -/
def get? (m : SourceMap) (file : String) : Option String :=
  (m.files.find? (·.1 == file)).map (·.2)

/-- Line `n` of `file`. -/
def line? (m : SourceMap) (file : String) (n : Nat) : Option String :=
  (m.get? file).bind (Lines.line? · n)

@[simp] theorem get?_add_self (m : SourceMap) (file source : String) :
    (m.add file source).get? file = some source := by
  simp [add, get?]

end SourceMap

end ScriptLang
