/-!
# Replacing parts of a text

Occurrences of a pattern in a text are found from left to right, each one after the end of the one
before. An empty pattern occurs before every character and at the end.

* `Replace.all` replaces every occurrence, `Replace.first` only the first one.
* `Replace.splitAt` gives the pieces between the occurrences.
-/

namespace ScriptLang.Replace

/-- The rest of a text after a pattern at its beginning. -/
def afterPattern? : List Char → List Char → Option (List Char)
  | [], cs => some cs
  | _ :: _, [] => none
  | p :: ps, c :: cs => if p = c then afterPattern? ps cs else none

/-- Replaces every occurrence of a pattern that is not empty. `skip` characters of an occurrence
already replaced are left out. -/
def allFrom (pattern replacement : List Char) : Nat → List Char → List Char
  | _, [] => []
  | skip + 1, _ :: cs => allFrom pattern replacement skip cs
  | 0, c :: cs =>
    if pattern.isPrefixOf (c :: cs) then
      replacement ++ allFrom pattern replacement (pattern.length - 1) cs
    else c :: allFrom pattern replacement 0 cs

/-- Puts a text before every character and at the end. -/
def interleave (replacement : List Char) : List Char → List Char
  | [] => replacement
  | c :: cs => replacement ++ c :: interleave replacement cs

/-- A text with every occurrence of a pattern replaced. -/
def all (pattern replacement s : String) : String :=
  if pattern.isEmpty then String.ofList (interleave replacement.toList s.toList)
  else String.ofList (allFrom pattern.toList replacement.toList 0 s.toList)

/-- Replaces the first occurrence of a pattern. -/
def firstFrom (pattern replacement : List Char) : List Char → List Char
  | [] => if pattern.isEmpty then replacement else []
  | c :: cs =>
    match afterPattern? pattern (c :: cs) with
    | some rest => replacement ++ rest
    | none => c :: firstFrom pattern replacement cs

/-- A text with the first occurrence of a pattern replaced. -/
def first (pattern replacement s : String) : String :=
  String.ofList (firstFrom pattern.toList replacement.toList s.toList)

/-- The pieces between the occurrences of a pattern that is not empty. `piece` holds the characters
of the current piece, the last one first. -/
def piecesFrom (pattern : List Char) : Nat → List Char → List Char → List (List Char)
  | _, piece, [] => [piece.reverse]
  | skip + 1, piece, _ :: cs => piecesFrom pattern skip piece cs
  | 0, piece, c :: cs =>
    if pattern.isPrefixOf (c :: cs) then
      piece.reverse :: piecesFrom pattern (pattern.length - 1) [] cs
    else piecesFrom pattern 0 (c :: piece) cs

/-- The pieces of a text between the occurrences of a pattern that is not empty. -/
def splitAt (pattern s : String) : List String :=
  (piecesFrom pattern.toList 0 [] s.toList).map String.ofList

end ScriptLang.Replace
