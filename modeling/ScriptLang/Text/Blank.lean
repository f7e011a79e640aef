/-!
# Blank characters

The characters of the Unicode property `White_Space`, and the trimming of texts by them.

* `Blank.isBlank` is the property itself, given by its ranges.
* `Blank.trimStart`, `Blank.trimEnd` and `Blank.trim` drop blanks from the ends of a text.
* `Blank.leading` counts the blanks that `trimStart` drops.
-/

namespace ScriptLang.Blank

/-- The property `White_Space`: tab to carriage return, space, next line, no-break space and the
space characters of the general punctuation and ideographic blocks. -/
def isBlank (c : Char) : Bool :=
  let n := c.toNat
  (9 ≤ n && n ≤ 13) || n == 0x20 || n == 0x85 || n == 0xA0 || n == 0x1680
    || (0x2000 ≤ n && n ≤ 0x200A) || n == 0x2028 || n == 0x2029 || n == 0x202F || n == 0x205F
    || n == 0x3000

/-- Every character that core calls whitespace is blank. -/
theorem isBlank_of_isWhitespace {c : Char} (h : c.isWhitespace = true) : isBlank c = true := by
  simp only [Char.isWhitespace, Bool.or_eq_true, decide_eq_true_eq] at h
  rcases h with ((h | h) | h) | h <;> subst h <;> rfl

/-- The characters of a text without its leading blanks. -/
def dropBlanks (cs : List Char) : List Char := cs.dropWhile isBlank

/-- The characters of a text without its trailing blanks. -/
def dropBlanksEnd (cs : List Char) : List Char := (dropBlanks cs.reverse).reverse

/-- A text without its leading blanks. -/
def trimStart (s : String) : String := String.ofList (dropBlanks s.toList)

/-- A text without its trailing blanks. -/
def trimEnd (s : String) : String := String.ofList (dropBlanksEnd s.toList)

/-- A text without blanks at either end. -/
def trim (s : String) : String := String.ofList (dropBlanksEnd (dropBlanks s.toList))

/-- The number of leading blanks. -/
def leading (s : String) : Nat := (s.toList.takeWhile isBlank).length

end ScriptLang.Blank
