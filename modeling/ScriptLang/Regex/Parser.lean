import ScriptLang.Character.Property
import ScriptLang.Regex.Class

/-!
# Reading patterns

`PatternNode.parse` reads a whole pattern. Alternatives bind weaker than sequences, and these weaker
than repetitions; parentheses group, and capture unless a question mark says otherwise. Nodes that
lie too deep are refused at the end.
-/

namespace ScriptLang.PatternReader

open PatternCursor

/-- The flag of a letter. -/
def flag? : Char → Option PatternFlag
  | 'i' => some .ignoreCase
  | 'm' => some .multiLine
  | 's' => some .dotMatchesNewLine
  | 'U' => some .swapGreed
  | 'u' => some .unicode
  | 'R' => some .carriageReturn
  | 'x' => some .extended
  | _ => none

/-- What has been read of a list of flags: the flags and the dash, each with its place, the latest
first. -/
structure FlagsRead where
  items : List (Option PatternFlag × Stretch)

/-- The list of flags that was read. Those behind the dash are cleared. -/
def FlagsRead.toList (f : FlagsRead) : FlagList :=
  let (set, cleared) := f.items.reverse.span (·.1.isSome)
  ⟨set.filterMap (fun i => i.1.map (·, true)) ++ cleared.filterMap (fun i => i.1.map (·, false))⟩

/-- The flags up to a colon or a closing parenthesis. A bound on their number comes first. -/
def flags : Nat → FlagsRead → PatternReading FlagsRead
  | 0, read => return read
  | n + 1, read => do
    match ← peek with
    | some ':' | some ')' | none =>
      match read.items with
      | (none, dash) :: _ => refuse .flagDanglingNegation dash
      | _ => return read
    | some c =>
      let extent ← charStretch
      let item ←
        if c = '-' then pure none
        else
          match flag? c with
          | some f => pure (some f)
          | none => refuse .flagUnrecognized extent
      match read.items.reverse.find? (·.1 == item) with
      | some (_, first) =>
        throw
          { fault := if item.isNone then .flagRepeatedNegation else .flagDuplicate
            extent
            first := some first }
      | none =>
        if !(← bump) then refuse .flagUnfinished (← point)
        flags n ⟨(item, extent) :: read.items⟩

/-- Whether a character may stand in the name of a group. -/
def isNameChar (first : Bool) (c : Char) : Bool :=
  if first then c == '_' || Letter.isAlphabetic c
  else c == '_' || c == '.' || c == '[' || c == ']' || Letter.isAlphanumeric c

/-- The characters of the name of a group, up to the sign that ends it. -/
def nameChars : Nat → Bool → PatternReading (List Char)
  | 0, _ => return []
  | n + 1, first => do
    match ← peek with
    | none | some '>' => return []
    | some c =>
      if !isNameChar first c then refuse .groupNameInvalid (← charStretch)
      let _ ← bump
      return c :: (← nameChars n false)

/-- The name of a group, with the sign that ends it. -/
def groupName : PatternReading String := do
  let start ← placeNow
  let cs ← nameChars (← get).rest.length true
  if ← atEnd then refuse .groupNameUnfinished (← point)
  let extent ← since start
  let _ ← bump
  if cs.isEmpty then refuse .groupNameEmpty extent
  let name := String.ofList cs
  match (← get).names.find? (·.1 == name) with
  | some (_, first) => throw { fault := .groupNameDuplicate, extent, first := some first }
  | none =>
    modify fun s => { s with names := s.names ++ [(name, extent)] }
    return name

/-- The number of a new group. -/
def nextIndex : PatternReading Nat := do
  modify fun s => { s with groups := s.groups + 1 }
  return (← get).groups

/-- The beginning of a group behind its parenthesis, or a list of flags that has no group. `head` is
the stretch of the parenthesis. -/
def groupHead (head : Stretch) : PatternReading (PatternNode ⊕ GroupKind) := do
  skipSpace
  if ← bumpIf "?=" then refuse .lookAround (← since head.start)
  if ← bumpIf "?!" then refuse .lookAround (← since head.start)
  if ← bumpIf "?<=" then refuse .lookAround (← since head.start)
  if ← bumpIf "?<!" then refuse .lookAround (← since head.start)
  let question ← point
  let mut named ← bumpIf "?P<"
  if !named then named ← bumpIf "?<"
  if named then
    let index ← nextIndex
    return .inr (.capturing index (some (← groupName)))
  else if ← bumpIf "?" then
    if ← atEnd then refuse .groupUnclosed head
    let read ← flags (← get).rest.length ⟨[]⟩
    let closed ← nextIs ')'
    let _ ← bump
    if closed then
      if read.items.isEmpty then refuse .repetitionMissing question
      return .inl (.flags (← since head.start) read.toList)
    else return .inr (.plain read.toList)
  else return .inr (.capturing (← nextIndex) none)

/-- Repeats the last part of a sequence, which is given the latest first. `start` is where the sign
of the repetition begins. -/
def repeatLast (parts : List PatternNode) (least : Nat) (most : Option Nat) (lazy : Bool) :
    PatternReading (List PatternNode) := do
  match parts with
  | [] => return []
  | last :: before =>
    return .repeated (← since last.extent.start) ⟨least, most, lazy⟩ last :: before

/-- Refuses a repetition that has nothing to repeat. -/
def needsRepeatable (parts : List PatternNode) : PatternReading Unit := do
  if !(parts.head?.any PatternNode.repeatable) then refuse .repetitionMissing (← point)

/-- A repetition by a single sign. -/
def uncounted (parts : List PatternNode) (least : Nat) (most : Option Nat) :
    PatternReading (List PatternNode) := do
  needsRepeatable parts
  let _ ← bump
  let lazy ← nextIs '?'
  if lazy then let _ ← bump
  repeatLast parts least most lazy

/-- A repetition by counts in braces. -/
def counted (parts : List PatternNode) : PatternReading (List PatternNode) := do
  let start ← placeNow
  needsRepeatable parts
  if !(← bumpSpaced) then refuse .countUnclosed (← since start)
  let (readLeast, leastExtent) ← PatternEscape.decimal
  if ← atEnd then refuse .countUnclosed (← since start)
  let needed (number : Except PatternFault Nat) (extent : Stretch) : PatternReading Nat :=
    match number with
    | .ok n => pure n
    | .error fault => refuse fault extent
  let (least, most) ←
    if !(← nextIs ',') then
      let least ← needed readLeast leastExtent
      pure (least, some least)
    else
      if !(← bumpSpaced) then refuse .countUnclosed (← since start)
      let least ← needed readLeast leastExtent
      if ← nextIs '\x7d' then pure (least, none)
      else
        let (readMost, mostExtent) ← PatternEscape.decimal
        pure (least, some (← needed readMost mostExtent))
  if !(← nextIs '\x7d') then refuse .countUnclosed (← since start)
  let _ ← bumpSpaced
  let lazy ← nextIs '?'
  if lazy then let _ ← bump
  if most.any (· < least) then refuse .countInvalid (← since start)
  repeatLast parts least most lazy

/-- Something that is no repetition, group or class. -/
def primitive (c : Char) : PatternReading PatternNode := do
  if c = '\\' then PatternEscape.escape
  else
    let extent ← charStretch
    let _ ← bump
    match c with
    | '.' => return .dot extent
    | '^' => return .anchor extent .lineStart
    | '$' => return .anchor extent .lineEnd
    | _ => return .char ⟨c, false, extent⟩

/-- What has been read of a group: where the sequence at hand began, its parts, the latest first,
and the alternatives before it, the latest first. -/
structure GroupRead where
  start : Position
  parts : List PatternNode
  earlier : List PatternNode

/-- The sequence at hand, up to a place. -/
def GroupRead.sequenceTo (g : GroupRead) (stop : Position) : PatternNode :=
  .ofSequence ⟨g.start, stop⟩ g.parts.reverse

/-- All that was read of a group, up to a place. -/
def GroupRead.allTo (g : GroupRead) (stop : Position) : PatternNode :=
  match g.earlier.reverse with
  | [] => g.sequenceTo stop
  | first :: rest =>
    .alternatives ⟨first.extent.start, stop⟩ (first :: rest ++ [g.sequenceTo stop])

/-- The rest of a group, up to its closing parenthesis or the end of the pattern. A bound on the
number of steps comes first. -/
def body : Nat → GroupRead → PatternReading PatternNode
  | 0, g => return g.allTo (← placeNow)
  | n + 1, g => do
    skipSpace
    match ← peek with
    | none | some ')' => return g.allTo (← placeNow)
    | some '(' =>
      let head ← charStretch
      let _ ← bump
      match ← groupHead head with
      | .inl node =>
        if let .flags _ list := node then
          if let some on := list.state? .extended then modify ({ · with extended := on })
        body n { g with parts := node :: g.parts }
      | .inr kind =>
        let before := (← get).extended
        if let .plain list := kind then
          if let some on := list.state? .extended then modify ({ · with extended := on })
        let inside ← body n ⟨← placeNow, [], []⟩
        if ← atEnd then refuse .groupUnclosed head
        modify ({ · with extended := before })
        let _ ← bump
        body n { g with parts := .group (← since head.start) kind inside :: g.parts }
    | some '|' =>
      let done := g.sequenceTo (← placeNow)
      let _ ← bump
      body n ⟨← placeNow, [], done :: g.earlier⟩
    | some '[' => do
      let c ← PatternClass.read
      body n { g with parts := c :: g.parts }
    | some '?' => do
      let parts ← uncounted g.parts 0 (some 1)
      body n { g with parts }
    | some '*' => do
      let parts ← uncounted g.parts 0 none
      body n { g with parts }
    | some '+' => do
      let parts ← uncounted g.parts 1 none
      body n { g with parts }
    | some '\x7b' => do
      let parts ← counted g.parts
      body n { g with parts }
    | some c => do
      let p ← primitive c
      body n { g with parts := p :: g.parts }

/-- A whole pattern. -/
def whole : PatternReading PatternNode := do
  let node ← body ((← get).rest.length + 1) ⟨.start, [], []⟩
  if ← nextIs ')' then refuse .groupUnopened (← charStretch)
  return node

end ScriptLang.PatternReader

namespace ScriptLang

/-- The syntax tree of a pattern. -/
def PatternNode.parse (pattern : String) : Except PatternError PatternNode := do
  let (node, _) ← PatternReader.whole (.ofPattern pattern)
  node.checkNesting PatternNode.nestLimit 0
  return node

end ScriptLang
