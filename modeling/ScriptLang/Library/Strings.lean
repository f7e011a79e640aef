import ScriptLang.Library.Argument
import ScriptLang.Number.Decimal
import ScriptLang.Text.Blank
import ScriptLang.Text.Case
import ScriptLang.Text.Replace

/-!
# The module `string`

Functions on texts. Positions and lengths count characters.

* `StringFn.indexFrom` and `StringFn.lastIndexUpTo` search for a text in another.
* `StringFn.padding` fills a text up with repetitions of another.
* Results longer than a collection may be are refused before they are made.
-/

namespace ScriptLang

namespace StringReport

/-- The text to search for is empty. -/
def emptySearch : Report :=
  .badArgument "contains() argument 2 cannot be an empty string."
    "Provide a non-empty string for argument 2 of 'contains'."

/-- A separator is neither a text nor a number. -/
def separatorType (got : Value) : Report :=
  .wrongType s!"split() expects a string or number as argument 2. Got '{got.typeName}'."
    "Ensure argument 2 for 'split' is a string or number."

/-- A pattern is a number. -/
def numberPattern (function : String) : Report :=
  .wrongType
    s!"{function}() pattern (arg 2) must be a string for Mimo's string.{function}."
    "Provide a string for the pattern to replace."

/-- A pattern is no text. -/
def patternType (function : String) (got : Value) : Report :=
  .wrongType s!"{function}() expects a string or number as argument 2. Got '{got.typeName}'."
    s!"Ensure argument 2 for '{function}' is a string or number."

/-- A text cannot be repeated so often. -/
def repeatCount (count : Float) : Report :=
  .badArgument <|
    "repeat() count must be a non-negative finite number. Got "
      ++ Layout.plain.write count ++ "."

end StringReport

namespace StringFn

open Eval Argument

/-- Whether a text stands at the beginning of one of the ends of another, looked for from an index
on. -/
def searchFrom (needle : List Char) : Nat → List Char → Option Nat
  | i, [] => if needle.isEmpty then some i else none
  | i, c :: cs =>
    if needle.isPrefixOf (c :: cs) then some i else searchFrom needle (i + 1) cs

/-- The first index of a text in another, from an index on. -/
def indexFrom (hay needle : List Char) (start : Nat) : Option Nat :=
  if needle.isEmpty then some (min start hay.length)
  else searchFrom needle start (hay.drop start)

/-- The last index of a text in another that is not above `n - 1`. -/
def lastIndexBelow (hay needle : List Char) : Nat → Option Nat
  | 0 => none
  | n + 1 => if needle.isPrefixOf (hay.drop n) then some n else lastIndexBelow hay needle n

/-- The last index of a text in another up to an index. -/
def lastIndexUpTo (hay needle : List Char) (last : Nat) : Option Nat :=
  if hay.length < needle.length then none
  else lastIndexBelow hay needle (min (hay.length - needle.length) last + 1)

/-- An index, or -1 for none. -/
def indexOrMinusOne : Option Nat → Value
  | some i => .ofNat i
  | none => .number (-1)

/-- So many characters of a text repeated without end. `rest` is what remains of the current
repetition. -/
def cycle (pad : List Char) : List Char → Nat → List Char
  | _, 0 => []
  | c :: rest, n + 1 => c :: cycle pad rest n
  | [], n + 1 =>
    match pad with
    | [] => []
    | c :: rest => c :: cycle pad rest n

/-- The text of an argument and what fills it up to the length that the next one asks for. -/
def padding (function : String) (args : List Value) (loc : Location) : Eval (String × String) := do
  let s ← text function (nth args 1) 1 loc
  let target := Binary.cutToCount (← number function (nth args 2) 2 loc)
  let pad ← match given? args 3 with
    | some v => text function v 3 loc
    | none => pure " "
  if target ≤ s.length || pad.isEmpty then return (s, "")
  else if maxCollectionLength < target then
    fail (.resultTooLarge function (Layout.plain.write (Binary.ofNat target))) loc
  else return (s, String.ofList (cycle pad.toList [] (target - s.length)))

/-- The characters of the text argument at a position. -/
def chars (function : String) (args : List Value) (position : Nat) (loc : Location) :
    Eval (List Char) := do
  return (← text function (nth args position) position loc).toList

/-- A count argument that may be left out. -/
def count (function : String) (args : List Value) (position fallback : Nat) (loc : Location) :
    Eval Nat := do
  match ← optionalNumber function args position loc with
  | some x => return Binary.cutToCount x
  | none => return fallback

/-- The text of characters as a value. -/
def ofChars (cs : List Char) : Value := .string (String.ofList cs)

/-- The part of a text between two positions. -/
def between (cs : List Char) (first last : Nat) : List Char := (cs.take last).drop first

/-- What a text is split at: nothing, or the printed form of a text or number. -/
def separator (args : List Value) (loc : Location) : Eval (Option String) :=
  match given? args 2 with
  | none => pure none
  | some (.string s) => pure (some s)
  | some (.number x) => pure (some (Layout.display.write x))
  | some v => refuse (StringReport.separatorType v) loc

/-- The pieces of a text. -/
def pieces (s : String) : Option String → List String
  | none => [s]
  | some sep => if sep.isEmpty then s.toList.map Char.toString else Replace.splitAt sep s

/-- The pattern of a replacement. -/
def pattern (function : String) (args : List Value) (loc : Location) : Eval String :=
  match nth args 2 with
  | .string s => pure s
  | .number _ => refuse (StringReport.numberPattern function) loc
  | v => refuse (StringReport.patternType function v) loc

/-- A replacement in a text. -/
def replaceWith (function : String) (replaced : String → String → String → String)
    (args : List Value) (loc : Location) : Eval Value := do
  let s ← text function (nth args 1) 1 loc
  let p ← pattern function args loc
  let r ← text function (nth args 3) 3 loc
  return .string (replaced p r s)

/-- A text so many times. The empty text needs no repetition, however often it is asked for. -/
def times (s : String) (n : Nat) : String :=
  if s.isEmpty then "" else n.repeat (· ++ s) ""

/-- A repetition, if it is not too long. -/
def repetition (args : List Value) (loc : Location) : Eval Value := do
  let s ← text "repeat" (nth args 1) 1 loc
  let count ← number "repeat" (nth args 2) 2 loc
  if count < 0 || count.isInf then refuse (StringReport.repeatCount count) loc
  else
    let n := Binary.cutToCount count
    if maxCollectionLength < min (s.utf8ByteSize * n) (Nat.pow 2 64 - 1) then
      let length := Binary.ofNat s.utf8ByteSize * Binary.ofNat n
      fail (.resultTooLarge "repeat" (Layout.plain.write length)) loc
    else return .string (times s n)

/-- The function of a name from texts to texts. -/
def transformation? : StringFn → Option (String → String)
  | .toUpper => some Case.upper
  | .toLower => some Case.lower
  | .trim => some Blank.trim
  | .trimStart => some Blank.trimStart
  | .trimEnd => some Blank.trimEnd
  | .toTitleCase => some Case.title
  | .capitalize => some Case.capitalize
  | _ => none

/-- The result of a function. -/
def run (f : StringFn) (args : List Value) (loc : Location) : Eval Value :=
  match f with
  | .padStart => do
    let (s, fill) ← padding "pad_start" args loc
    return .string (fill ++ s)
  | .padEnd => do
    let (s, fill) ← padding "pad_end" args loc
    return .string (s ++ fill)
  | .contains => do
    let s ← chars "contains" args 1 loc
    let search ← chars "contains" args 2 loc
    if search.isEmpty then refuse StringReport.emptySearch loc
    else
      let start ← count "contains" args 3 0 loc
      return .bool (indexFrom s search start).isSome
  | .startsWith => do
    let s ← chars "starts_with" args 1 loc
    let search ← chars "starts_with" args 2 loc
    let start ← count "starts_with" args 3 0 loc
    return .bool (search.isPrefixOf (s.drop start))
  | .endsWith => do
    let s ← chars "ends_with" args 1 loc
    let search ← chars "ends_with" args 2 loc
    let stop ← count "ends_with" args 3 s.length loc
    return .bool (search.isSuffixOf (s.take stop))
  | .indexOf => do
    let s ← chars "index_of" args 1 loc
    let search ← chars "index_of" args 2 loc
    let start ← count "index_of" args 3 0 loc
    return indexOrMinusOne (indexFrom s search start)
  | .lastIndexOf => do
    let s ← chars "last_index_of" args 1 loc
    let search ← chars "last_index_of" args 2 loc
    let last ← match ← optionalNumber "last_index_of" args 3 loc with
      | some x => pure (if x.isNaN then s.length else Binary.cutToCount x)
      | none => pure s.length
    return indexOrMinusOne (lastIndexUpTo s search last)
  | .substring => do
    let s ← chars "substring" args 1 loc
    let first := Binary.cutToCount (← number "substring" (nth args 2) 2 loc)
    let last ← count "substring" args 3 s.length loc
    let first := min first s.length
    let last := min last s.length
    return ofChars (between s (min first last) (max first last))
  | .slice => do
    let s ← chars "slice" args 1 loc
    let first := relativeIndex (← number "slice" (nth args 2) 2 loc) s.length
    let last := match ← optionalNumber "slice" args 3 loc with
      | some x => relativeIndex x s.length
      | none => s.length
    return ofChars (between s first last)
  | .split => do
    let s ← text "split" (nth args 1) 1 loc
    let sep ← separator args loc
    let found := pieces s sep
    let limit ← count "split" args 3 found.length loc
    newList ((found.take limit).map .string)
  | .replace => replaceWith "replace" Replace.first args loc
  | .replaceAll => replaceWith "replace_all" Replace.all args loc
  | .repeated => repetition args loc
  | .charAt => do
    let s ← chars "char_at" args 1 loc
    let i := Binary.cutToInt64 (← number "char_at" (nth args 2) 2 loc)
    return ofChars (if i < 0 then [] else s[i.toNat]?.toList)
  | .isEmpty => do return .bool (← text "is_empty" (nth args 1) 1 loc).isEmpty
  | .isBlank => do return .bool ((← text "is_blank" (nth args 1) 1 loc).toList.all Blank.isBlank)
  | f =>
    match transformation? f with
    | some op => do return .string (op (← text f.signature.1 (nth args 1) 1 loc))
    | none => pure .null

end StringFn

end ScriptLang
