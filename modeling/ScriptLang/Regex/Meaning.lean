import ScriptLang.Character.Query
import ScriptLang.Regex.Expression
import ScriptLang.Regex.Parser
import ScriptLang.Text.Fold

/-!
# From patterns to regular expressions

Flags decide what the parts of a pattern mean. They hold from where they are set to the end of the
group, also across alternatives.

* `PatternMeaning.classOf` is the set of characters of a class. Letters are closed up to case
  before a class is negated.
* Without the flag for Unicode, classes are sets of ASCII characters, and whatever could match other
  bytes is refused.
* `RegularExpr.ofPattern` is the expression of a pattern.
-/

namespace ScriptLang

/-- The flags under which a part of a pattern is read. -/
structure PatternFlags where
  ignoreCase : Bool := false
  multiLine : Bool := false
  dotMatchesNewLine : Bool := false
  swapGreed : Bool := false
  unicode : Bool := true
  carriageReturn : Bool := false
  deriving DecidableEq, Repr

/-- The flags with the changes of a list. -/
def PatternFlags.change (f : PatternFlags) (l : FlagList) : PatternFlags where
  ignoreCase := (l.state? .ignoreCase).getD f.ignoreCase
  multiLine := (l.state? .multiLine).getD f.multiLine
  dotMatchesNewLine := (l.state? .dotMatchesNewLine).getD f.dotMatchesNewLine
  swapGreed := (l.state? .swapGreed).getD f.swapGreed
  unicode := (l.state? .unicode).getD f.unicode
  carriageReturn := (l.state? .carriageReturn).getD f.carriageReturn

namespace PatternMeaning

/-- A meaning, or why there is none. -/
abbrev Meaning := Except PatternError

/-- Refuses the pattern for what a stretch of it means. -/
def refuse {α : Type} (fault : PatternFault) (extent : Stretch) : Meaning α :=
  .error { fault, extent }

/-- The ranges of a class of ASCII characters. -/
def asciiRanges : AsciiClass → List (Char × Char)
  | .alnum => [('0', '9'), ('A', 'Z'), ('a', 'z')]
  | .alpha => [('A', 'Z'), ('a', 'z')]
  | .ascii => [('\x00', '\x7f')]
  | .blank => [('\t', '\t'), (' ', ' ')]
  | .cntrl => [('\x00', '\x1f'), ('\x7f', '\x7f')]
  | .digit => [('0', '9')]
  | .graph => [('!', '~')]
  | .lower => [('a', 'z')]
  | .print => [(' ', '~')]
  | .punct => [('!', '/'), (':', '@'), ('[', '\x60'), ('\x7b', '~')]
  | .space => [('\t', '\r'), (' ', ' ')]
  | .upper => [('A', 'Z')]
  | .word => [('0', '9'), ('A', 'Z'), ('_', '_'), ('a', 'z')]
  | .xdigit => [('0', '9'), ('A', 'F'), ('a', 'f')]

/-- The characters of a class of ASCII characters. -/
def asciiSet (kind : AsciiClass) : Ranges :=
  .ofList <| (asciiRanges kind).map fun (a, b) => (a.toNat, b.toNat)

/-- The decimal digits. -/
def digits : Ranges := (Category.find? "nd").getD Ranges.empty

/-- The blank characters. -/
def blanks : Ranges := Property.basicSet "whitespace"

/-- A set, closed up to case and negated as the flags and the class demand. -/
def adjust (f : PatternFlags) (extent : Stretch) (negated : Bool) (set : Ranges) :
    Meaning Ranges :=
  if f.unicode then
    let closed := if f.ignoreCase then Fold.closure set else set
    .ok (if negated then closed.complement Ranges.lastPoint else closed)
  else
    let closed := if f.ignoreCase then Fold.closureAscii set else set
    let all := if negated then closed.complement 255 else closed
    if all.isAscii then .ok all else refuse .invalidUtf8 extent

/-- The characters of a class with a letter of its own. -/
def letterSet (f : PatternFlags) (extent : Stretch) (kind : LetterClass) (negated : Bool) :
    Meaning Ranges :=
  if f.unicode then
    let set := match kind with
      | .digit => digits
      | .space => blanks
      | .word => Property.word
    .ok (if negated then set.complement Ranges.lastPoint else set)
  else
    let set := match kind with
      | .digit => asciiSet .digit
      | .space => asciiSet .space
      | .word => asciiSet .word
    if negated then refuse .invalidUtf8 extent else .ok set

/-- The characters that have what a query asks for. -/
def propertySet (extent : Stretch) (query : PropertyQuery) : Meaning Ranges :=
  let found := match query with
    | .letter c => Query.named (String.singleton c)
    | .name name => Query.named name
    | .value name value => Query.valued name value
  match found with
  | .ok set => .ok set
  | .error .propertyUnknown => refuse .propertyUnknown extent
  | .error .valueUnknown => refuse .propertyValueUnknown extent

/-- The characters of a class by a property. -/
def propertyClass (f : PatternFlags) (extent : Stretch) (p : PropertyClass) : Meaning Ranges := do
  if !f.unicode then refuse .unicodeNotAllowed extent
  adjust f extent p.negated (← propertySet extent p.query)

/-- A character, where only ASCII characters can stand for bytes. -/
def charOf (f : PatternFlags) (c : PatternChar) : Meaning Char :=
  if !f.unicode && c.asByte && !c.char.toNat < 128 then refuse .invalidUtf8 c.extent
  else .ok c.char

/-- A character of a class. -/
def classChar (f : PatternFlags) (c : PatternChar) : Meaning Nat := do
  let char ← charOf f c
  if f.unicode || char.toNat < 128 then return char.toNat
  else refuse .unicodeNotAllowed c.extent

mutual

/-- The characters of the inside of a class. -/
def classOf (f : PatternFlags) : ClassNode → Meaning Ranges
  | .empty _ => .ok Ranges.empty
  | .char c => do
    let n ← classChar f c
    return .between n n
  | .range _ first last => do
    let a ← classChar f first
    let b ← classChar f last
    return .between a b
  | .ascii e kind negated => adjust f e negated (asciiSet kind)
  | .letter e kind negated => letterSet f e kind negated
  | .property e p => propertyClass f e p
  | .bracketed e negated inside => do adjust f e negated (← classOf f inside)
  | .union _ items => do return .ofList (← unionOf f items)
  | .combined _ op left right => do
    let a ← classOf f left
    let b ← classOf f right
    let fold (r : Ranges) : Ranges :=
      if f.ignoreCase then if f.unicode then Fold.closure r else Fold.closureAscii r else r
    return match op with
      | .intersection => (fold a).inter (fold b)
      | .difference => (fold a).diff (fold b)
      | .symmetricDifference => (fold a).symmDiff (fold b)

/-- The ranges of all items of a class. -/
def unionOf (f : PatternFlags) : List ClassNode → Meaning (List (Nat × Nat))
  | [] => .ok []
  | item :: rest => do
    let set ← classOf f item
    return set.bounds.toList ++ (← unionOf f rest)

end

/-- The condition of an anchor. -/
def lookOf (f : PatternFlags) : Anchor → Look
  | .lineStart =>
    if !f.multiLine then .textStart else if f.carriageReturn then .returnLineStart else .lineStart
  | .lineEnd =>
    if !f.multiLine then .textEnd else if f.carriageReturn then .returnLineEnd else .lineEnd
  | .textStart => .textStart
  | .textEnd => .textEnd
  | .wordBoundary => .word .boundary members
  | .noWordBoundary => .word .noBoundary members
  | .wordStart => .word .start members
  | .wordEnd => .word .stop members
  | .wordStartHalf => .word .startHalf members
  | .wordEndHalf => .word .stopHalf members
where
  members : Ranges := if f.unicode then Property.word else asciiSet .word

/-- What the dot matches. -/
def dotSet (f : PatternFlags) (extent : Stretch) : Meaning Ranges :=
  if !f.unicode then refuse .invalidUtf8 extent
  else if f.dotMatchesNewLine then .ok (.between 0 Ranges.lastPoint)
  else
    let ends := if f.carriageReturn then ['\n', '\r'] else ['\n']
    .ok ((Ranges.ofList (ends.map fun c => (c.toNat, c.toNat))).complement Ranges.lastPoint)

mutual

/-- The expression of a pattern under flags, with the flags that hold behind it. -/
def exprOf (f : PatternFlags) : PatternNode → Meaning (RegularExpr × PatternFlags)
  | .empty _ => .ok (.empty, f)
  | .flags _ list => .ok (.empty, f.change list)
  | .char c => do
    let set := Ranges.single (← charOf f c)
    let closed :=
      if !f.ignoreCase then set
      else if f.unicode then Fold.closure set
      else Fold.closureAscii set
    return (.chars closed, f)
  | .dot e => do return (.chars (← dotSet f e), f)
  | .anchor _ kind => .ok (.look (lookOf f kind), f)
  | .letter e kind negated => do return (.chars (← letterSet f e kind negated), f)
  | .property e p => do return (.chars (← propertyClass f e p), f)
  | .bracketed e negated inside => do
    return (.chars (← adjust f e negated (← classOf f inside)), f)
  | .repeated _ r body => do
    let (expr, f) ← exprOf f body
    return (.repeated r.least r.most (r.lazy == f.swapGreed) expr, f)
  | .group _ kind body =>
    match kind with
    | .capturing index name => do
      let (expr, _) ← exprOf f body
      return (.capture index name expr, f)
    | .plain list => do
      let (expr, _) ← exprOf (f.change list) body
      return (expr, f)
  | .alternatives _ parts => do
    let (exprs, f) ← exprsOf f parts
    return (.ofAlternatives exprs, f)
  | .sequence _ parts => do
    let (exprs, f) ← exprsOf f parts
    return (.ofSequence exprs, f)

/-- The expressions of parts, each under the flags that hold behind the one before. -/
def exprsOf (f : PatternFlags) : List PatternNode → Meaning (List RegularExpr × PatternFlags)
  | [] => .ok ([], f)
  | part :: rest => do
    let (expr, f) ← exprOf f part
    let (exprs, f) ← exprsOf f rest
    return (expr :: exprs, f)

end

end PatternMeaning

/-- The expression of a pattern under flags that hold from its beginning. -/
def RegularExpr.ofPattern (f : PatternFlags) (pattern : String) : Except PatternError RegularExpr :=
  do
    let (expr, _) ← PatternMeaning.exprOf f (← PatternNode.parse pattern)
    return expr

end ScriptLang
