import ScriptLang.Library.Argument
import ScriptLang.Regex.Replacement

/-!
# The module `regex`

Searching and replacing by regular expressions. Flags are letters: `i`, `m` and `s` hold from the
beginning of the pattern, `g` asks for all matches, and `u` changes nothing.
-/

namespace ScriptLang

namespace RegexReport

/-- An argument is no text. -/
def textType (function : String) (position : Nat) (got : Value) : Report :=
  .wrongType s!"regex.{function}() expects a string as argument {position}. Got '{got.typeName}'."

/-- A pattern or its flags cannot be used. -/
def invalid (reason : String) : Report :=
  ⟨"REGEX001", s!"Invalid regular expression: {reason}", ""⟩

/-- A letter is no flag. -/
def badFlag (c : Char) : Report := invalid s!"invalid flag '{c}'"

end RegexReport

namespace RegexFn

open Eval Argument

/-- A text. -/
def textArg (f : RegexFn) (args : List Value) (position : Nat) (loc : Location) : Eval String :=
  match nth args position with
  | .string s => pure s
  | v => refuse (RegexReport.textType f.signature.1 position v) loc

/-- The letters of the flags, where an argument that is not given, null or empty stands for a
default. -/
def flagsArg (f : RegexFn) (args : List Value) (position : Nat) (default : String)
    (loc : Location) : Eval String := do
  match optional args position with
  | none => return default
  | some _ =>
    let flags ← f.textArg args position loc
    return if flags.isEmpty then default else flags

/-- The flags of letters, with whether all matches are asked for, or the first letter that is no
flag. -/
def readFlags : List Char → PatternFlags → Bool → Except Char (PatternFlags × Bool)
  | [], flags, all => .ok (flags, all)
  | 'i' :: cs, flags, all => readFlags cs { flags with ignoreCase := true } all
  | 'm' :: cs, flags, all => readFlags cs { flags with multiLine := true } all
  | 's' :: cs, flags, all => readFlags cs { flags with dotMatchesNewLine := true } all
  | 'g' :: cs, flags, _ => readFlags cs flags true
  | 'u' :: cs, flags, all => readFlags cs flags all
  | c :: _, _, _ => .error c

/-- The regular expression of a pattern, with whether all matches are asked for. -/
def compile (pattern flags : String) (loc : Location) : Eval (Regex × Bool) :=
  match readFlags flags.toList {} false with
  | .error c => refuse (RegexReport.badFlag c) loc
  | .ok (flags, all) =>
    match Regex.compile flags pattern with
    | .error reason => refuse (RegexReport.invalid reason) loc
    | .ok r => pure (r, all)

/-- The text between two places. -/
def between (text : Array Char) (places : Nat × Nat) : Value :=
  .string (String.ofList (text.extract places.1 places.2).toList)

/-- The texts of the groups of a match, null for those that take no part. -/
def groupValues (text : Array Char) (m : RegexMatch) : Array Value :=
  m.groups.map fun g => (g.map (between text)).getD .null

/-- The groups of the first match, or null. -/
def firstMatch (r : Regex) (text : Array Char) : Eval Value :=
  match r.search text 0 with
  | none => pure .null
  | some m => newArray (groupValues text m)

/-- The texts of all matches, or null. -/
def allMatches (r : Regex) (text : Array Char) : Eval Value :=
  match r.searchAll text with
  | [] => pure .null
  | ms => newArray (ms.map fun m => between text m.whole).toArray

/-- The flags of a search for matches. -/
def matchFlags (f : RegexFn) (args : List Value) (loc : Location) : Eval String :=
  if (given? args 3).isSome then f.textArg args 3 loc else return "g"

/-- The result of a function. -/
def run (f : RegexFn) (args : List Value) (loc : Location) : Eval Value := do
  let first ← f.textArg args 1 loc
  let second ← f.textArg args 2 loc
  match f with
  | .findMatches =>
    let flags ← f.matchFlags args loc
    let (r, all) ← compile first flags loc
    let text := second.toList.toArray
    if all then allMatches r text else firstMatch r text
  | .isMatch =>
    let flags ← f.flagsArg args 3 "" loc
    let (r, _) ← compile first flags loc
    return .bool (r.search second.toList.toArray 0).isSome
  | .replaceAll =>
    let replacement ← f.textArg args 3 loc
    let flags ← f.flagsArg args 4 "g" loc
    let (r, all) ← compile second flags loc
    return .string (r.replace all first replacement)
  | .extract =>
    let flags ← f.flagsArg args 3 "" loc
    let (r, _) ← compile first flags loc
    firstMatch r second.toList.toArray

end RegexFn

end ScriptLang
