import ScriptLang.Regex.Syntax
import ScriptLang.Text.Blank

/-!
# Reading patterns: the cursor

The rest of a pattern with its place, and what reading has learnt so far: whether blanks and remarks
are passed over, and the groups that were opened.

* `PatternCursor.bump` passes over a character, and `bumpSpaced` also over blanks and remarks behind
  it; both tell whether anything is left.
* `PatternCursor.takeWhile` collects characters in this way.
-/

namespace ScriptLang

/-- A place in a pattern that is being read. -/
structure PatternCursor where
  rest : List Char
  place : Position
  /-- Whether blanks and remarks mean nothing. -/
  extended : Bool
  /-- The number of capturing groups opened so far. -/
  groups : Nat
  /-- The names of groups, with the places where they are given. -/
  names : List (String × Stretch)

/-- Reading of a pattern. -/
abbrev PatternReading := StateT PatternCursor (Except PatternError)

namespace PatternCursor

/-- Before the first character of a pattern. -/
def ofPattern (pattern : String) : PatternCursor := ⟨pattern.toList, .start, false, 0, []⟩

/-- The rest of a pattern behind blanks and remarks. A remark goes from a hash sign to the end of
the line; `remark` is whether the place is in one. -/
def behindSpace (remark : Bool) : List Char → Position → List Char × Position
  | [], p => ([], p)
  | c :: cs, p =>
    if remark then behindSpace (c != '\n') cs (p.advance c)
    else if Blank.isBlank c then behindSpace false cs (p.advance c)
    else if c = '#' then behindSpace true cs (p.advance c)
    else (c :: cs, p)

/-- The next character behind blanks, when looked at from the list of what follows. The first
character of a remark counts as well. -/
def peekBehindSpace (all : List Char) : Bool → List Char → Option Char
  | _, [] => all.head?
  | remark, c :: cs =>
    if Blank.isBlank c then peekBehindSpace all remark cs
    else if !remark && c = '#' then peekBehindSpace all true cs
    else some c

/-- Refuses the pattern for something that a stretch of it shows. -/
def refuse {α : Type} (fault : PatternFault) (extent : Stretch) : PatternReading α :=
  throw { fault, extent }

/-- The place. -/
def placeNow : PatternReading Position := return (← get).place

/-- The next character, if there is one. -/
def peek : PatternReading (Option Char) := return (← get).rest.head?

/-- Whether the next character is a certain one. -/
def nextIs (c : Char) : PatternReading Bool := return (← get).rest.head? == some c

/-- Whether nothing is left. -/
def atEnd : PatternReading Bool := return (← get).rest.isEmpty

/-- The stretch from a place to the cursor. -/
def since (start : Position) : PatternReading Stretch := return ⟨start, (← get).place⟩

/-- The empty stretch at the cursor. -/
def point : PatternReading Stretch := do
  let p ← placeNow
  return ⟨p, p⟩

/-- The stretch of the next character. -/
def charStretch : PatternReading Stretch := do
  let s ← get
  return ⟨s.place, (s.rest.head?.map s.place.advance).getD s.place⟩

/-- Passes over blanks and remarks, if they mean nothing. -/
def skipSpace : PatternReading Unit :=
  modify fun s =>
    if s.extended then
      let (rest, place) := behindSpace false s.rest s.place
      { s with rest, place }
    else s

/-- Passes over one character, and tells whether another one follows. -/
def bump : PatternReading Bool := do
  match (← get).rest with
  | [] => return false
  | c :: cs =>
    modify fun s => { s with rest := cs, place := s.place.advance c }
    return !cs.isEmpty

/-- Passes over one character and the blanks behind it, and tells whether anything follows. -/
def bumpSpaced : PatternReading Bool := do
  if ← bump then
    skipSpace
    return !(← atEnd)
  else return false

/-- Passes over a text, if it comes next. -/
def bumpIf (text : String) : PatternReading Bool := do
  let cs := text.toList
  if cs.isPrefixOf (← get).rest then
    modify fun s =>
      { s with rest := s.rest.drop cs.length, place := s.place.advanceAll cs }
    return true
  else return false

/-- Collects characters that a test accepts, passing over blanks between them; a bound on their
number comes first. -/
def takeWhileFrom (accept : Char → Bool) : Nat → List Char → PatternReading (List Char)
  | 0, taken => return taken.reverse
  | n + 1, taken => do
    match (← get).rest with
    | c :: _ =>
      if accept c then
        let _ ← bumpSpaced
        takeWhileFrom accept n (c :: taken)
      else return taken.reverse
    | [] => return taken.reverse

/-- The characters that come next and that a test accepts. -/
def takeWhile (accept : Char → Bool) : PatternReading (List Char) := do
  takeWhileFrom accept (← get).rest.length []

end PatternCursor

end ScriptLang
