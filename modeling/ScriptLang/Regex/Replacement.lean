import ScriptLang.Regex.Search

/-!
# Replacing matches

A replacement is a text with references to groups.

* `Replacement.expand` puts in the texts of groups: `${name}` is the group of a name or
  number, and `$$` a dollar sign. A reference to no group, or to one that takes no part, is empty.
* `Replacement.part?` reads the short forms `$&`, `$1` and `$<name>`, and `Replacement.braced`
  writes them in braces and doubles every other dollar sign.
* `Regex.replace` replaces the first match or all matches.
-/

namespace ScriptLang

namespace Replacement

/-- **Part.** What a replacement is made of: characters that stand for themselves, and references to
the whole match, to the group of a number and to the group of a name. -/
inductive Part where
  | char (c : Char)
  | whole
  | number (digits : List Char)
  | name (letters : List Char)
  deriving DecidableEq, Repr

/-- The first part of a replacement, and what comes behind it. -/
def part? : List Char → Option (Part × List Char)
  | [] => none
  | '$' :: '$' :: rest => some (.char '$', rest)
  | '$' :: '&' :: rest => some (.whole, rest)
  | '$' :: '<' :: rest =>
    match rest.dropWhile (· != '>') with
    | _ :: behind => some (.name (rest.takeWhile (· != '>')), behind)
    | [] => some (.char '$', '<' :: rest)
  | '$' :: rest =>
    let digits := rest.takeWhile Char.isDigit
    if digits.isEmpty then some (.char '$', rest)
    else some (.number digits, rest.dropWhile Char.isDigit)
  | c :: rest => some (.char c, rest)

/-- What remains is not longer. -/
theorem length_dropWhile_le (p : Char → Bool) (cs : List Char) :
    (cs.dropWhile p).length ≤ cs.length :=
  (List.dropWhile_sublist p).length_le

/-- What remains behind a first character is shorter. -/
theorem length_lt_of_dropWhile {p : Char → Bool} {cs rest : List Char} {c : Char}
    (h : cs.dropWhile p = c :: rest) : rest.length < cs.length := by
  have hle := length_dropWhile_le p cs
  rw [h, List.length_cons] at hle
  exact hle

/-- What comes behind a part is shorter. -/
theorem length_lt_of_part? {cs rest : List Char} {part : Part} (h : part? cs = some (part, rest)) :
    rest.length < cs.length := by
  revert h
  fun_cases part? cs with
  | case1 => simp
  | case4 tail _ behind htail =>
    rintro ⟨⟩
    have := length_lt_of_dropWhile htail
    simp only [List.length_cons]
    omega
  | case7 tail =>
    rintro ⟨⟩
    have := length_dropWhile_le Char.isDigit tail
    simp only [List.length_cons]
    omega
  | _ =>
    rintro ⟨⟩
    simp only [List.length_cons]
    omega

/-- A reference in braces. -/
def reference (name : List Char) : List Char := ['$', '\x7b'] ++ name ++ ['\x7d']

/-- A part with its reference in braces. A dollar sign that stands for itself is doubled. -/
def Part.braced : Part → List Char
  | .char c => if c = '$' then ['$', '$'] else [c]
  | .whole => reference ['0']
  | .number digits => reference digits
  | .name letters => reference letters

/-- The form in which all references are in braces. -/
def braced (cs : List Char) : List Char :=
  match _h : part? cs with
  | none => []
  | some (part, rest) => part.braced ++ braced rest
termination_by cs.length
decreasing_by exact length_lt_of_part? _h

/-- The number that characters write, if they are decimal digits behind an optional plus sign and
the number fits a machine word. -/
def number? (cs : List Char) : Option Nat :=
  let digits := if cs.head? == some '+' then cs.drop 1 else cs
  if digits.isEmpty || !digits.all Char.isDigit then none
  else
    let n := digits.foldl (fun n c => 10 * n + (c.toNat - '0'.toNat)) 0
    if n < Nat.pow 2 64 then some n else none

/-- The text of a reference: by number if it is one, else by name. -/
def lookUp (byNumber : Nat → List Char) (byName : String → List Char) (ref : List Char) :
    List Char :=
  match number? ref with
  | some n => byNumber n
  | none => byName (String.ofList ref)

/-- Whether a character may stand in a reference without braces. -/
def isReferenceChar (c : Char) : Bool := c.isAlphanum || c == '_'

/-- A replacement with the texts of groups put in. -/
def expand (group : List Char → List Char) : List Char → List Char
  | [] => []
  | '$' :: '$' :: rest => '$' :: expand group rest
  | '$' :: '\x7b' :: rest =>
    match _h : rest.dropWhile (· != '\x7d') with
    | _ :: behind => group (rest.takeWhile (· != '\x7d')) ++ expand group behind
    | [] => '$' :: expand group ('\x7b' :: rest)
  | '$' :: rest =>
    let name := rest.takeWhile isReferenceChar
    if name.isEmpty then '$' :: expand group rest
    else group name ++ expand group (rest.dropWhile isReferenceChar)
  | c :: rest => c :: expand group rest
termination_by cs => cs.length
decreasing_by
  all_goals simp only [List.length_cons]
  · omega
  · have := length_lt_of_dropWhile _h
    omega
  · omega
  · omega
  · have := length_dropWhile_le isReferenceChar rest
    omega
  · omega

end Replacement

namespace Regex

/-- The text of a group of a match. -/
def groupText (text : Array Char) (m : RegexMatch) (i : Nat) : Option (List Char) :=
  (m.group? i).map fun (a, b) => (text.extract a b).toList

/-- The text of what a reference names. -/
def referenced (r : Regex) (text : Array Char) (m : RegexMatch) (ref : List Char) : List Char :=
  Replacement.lookUp (fun i => (groupText text m i).getD [])
    (fun name =>
      match r.program.names.find? (·.1 == name) with
      | some (_, i) => (groupText text m i).getD []
      | none => [])
    ref

/-- The text from a place on with matches replaced. -/
def replaceMatches (r : Regex) (text : Array Char) (replacement : List Char) :
    List RegexMatch → Nat → List Char
  | [], place => (text.extract place text.size).toList
  | m :: rest, place =>
    (text.extract place m.whole.1).toList ++ Replacement.expand (r.referenced text m) replacement
      ++ replaceMatches r text replacement rest m.whole.2

/-- The text with its first match or all its matches replaced. -/
def replace (r : Regex) (all : Bool) (text : String) (replacement : String) : String :=
  let chars := text.toList.toArray
  let found := if all then r.searchAll chars else (r.search chars 0).toList
  String.ofList (r.replaceMatches chars (Replacement.braced replacement.toList) found 0)

end Regex

end ScriptLang
