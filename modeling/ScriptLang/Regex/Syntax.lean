import ScriptLang.Regex.Fault

/-!
# Syntax trees of patterns

What a pattern says, before flags give it a meaning. Every node keeps the stretch of the pattern
that messages show for it.

* `ClassNode` is the inside of a bracketed class, or an item of it.
* `PatternNode` is a pattern. Sequences and alternatives have two parts or more.
* `PatternNode.checkNesting` finds the first node that lies too deep.
-/

namespace ScriptLang

/-- Options that a pattern can set for itself. -/
inductive PatternFlag where
  | ignoreCase
  | multiLine
  | dotMatchesNewLine
  | swapGreed
  | unicode
  | carriageReturn
  | extended
  deriving DecidableEq, Repr

/-- Options in the order in which a pattern lists them, with whether each is set or cleared. -/
structure FlagList where
  items : List (PatternFlag × Bool)
  deriving DecidableEq, Repr

/-- What a flag becomes, if the list has it. -/
def FlagList.state? (l : FlagList) (f : PatternFlag) : Option Bool :=
  (l.items.find? (·.1 == f)).map (·.2)

/-- Places between characters at which a pattern may insist. -/
inductive Anchor where
  | lineStart
  | lineEnd
  | textStart
  | textEnd
  | wordBoundary
  | noWordBoundary
  | wordStart
  | wordEnd
  | wordStartHalf
  | wordEndHalf
  deriving DecidableEq, Repr

/-- Classes with a letter of their own. -/
inductive LetterClass where
  | digit
  | space
  | word
  deriving DecidableEq, Repr

/-- Classes of ASCII characters with a name in brackets and colons. -/
inductive AsciiClass where
  | alnum | alpha | ascii | blank | cntrl | digit | graph | lower | print | punct | space | upper
  | word | xdigit
  deriving DecidableEq, Repr

/-- How a pattern asks for a property of characters. -/
inductive PropertyQuery where
  | letter (c : Char)
  | name (name : String)
  | value (name value : String)
  deriving DecidableEq, Repr

/-- A property of characters, possibly negated. -/
structure PropertyClass where
  query : PropertyQuery
  negated : Bool
  deriving DecidableEq, Repr

/-- A character that stands for itself. -/
structure PatternChar where
  char : Char
  /-- Whether it is written as a byte of two hexadecimal digits. -/
  asByte : Bool
  extent : Stretch
  deriving DecidableEq, Repr

/-- How two classes are combined. -/
inductive ClassOp where
  | intersection
  | difference
  | symmetricDifference
  deriving DecidableEq, Repr

/-- The inside of a bracketed class. -/
inductive ClassNode where
  | empty (extent : Stretch)
  | char (c : PatternChar)
  | range (extent : Stretch) (first last : PatternChar)
  | ascii (extent : Stretch) (kind : AsciiClass) (negated : Bool)
  | letter (extent : Stretch) (kind : LetterClass) (negated : Bool)
  | property (extent : Stretch) (p : PropertyClass)
  | bracketed (extent : Stretch) (negated : Bool) (inside : ClassNode)
  | union (extent : Stretch) (items : List ClassNode)
  | combined (extent : Stretch) (op : ClassOp) (left right : ClassNode)

/-- Groups: numbered ones capture what they match. -/
inductive GroupKind where
  | capturing (index : Nat) (name : Option String)
  | plain (flags : FlagList)
  deriving DecidableEq, Repr

/-- How often something may be repeated. -/
structure Repetition where
  least : Nat
  most : Option Nat
  lazy : Bool
  deriving DecidableEq, Repr

/-- A pattern. -/
inductive PatternNode where
  | empty (extent : Stretch)
  | flags (extent : Stretch) (list : FlagList)
  | char (c : PatternChar)
  | dot (extent : Stretch)
  | anchor (extent : Stretch) (kind : Anchor)
  | letter (extent : Stretch) (kind : LetterClass) (negated : Bool)
  | property (extent : Stretch) (p : PropertyClass)
  | bracketed (extent : Stretch) (negated : Bool) (inside : ClassNode)
  | repeated (extent : Stretch) (r : Repetition) (body : PatternNode)
  | group (extent : Stretch) (kind : GroupKind) (body : PatternNode)
  | alternatives (extent : Stretch) (parts : List PatternNode)
  | sequence (extent : Stretch) (parts : List PatternNode)

namespace ClassNode

/-- The stretch of a class or an item of it. -/
def extent : ClassNode → Stretch
  | empty e | range e _ _ | ascii e _ _ | letter e _ _ | property e _ | bracketed e _ _
  | union e _ | combined e _ _ _ => e
  | char c => c.extent

/-- Several items as one. `inside` is the stretch if there is none. -/
def ofItems (inside : Stretch) : List ClassNode → ClassNode
  | [] => empty inside
  | [item] => item
  | first :: rest =>
    let last := rest.getLastD first
    union ⟨first.extent.start, last.extent.stop⟩ (first :: rest)

/-- Goes one level down, if the limit allows it. -/
def deeper (limit depth : Nat) (e : Stretch) : Except PatternError Nat :=
  if limit ≤ depth then .error { fault := .nestLimit limit, extent := e } else .ok (depth + 1)

mutual

/-- Refuses a class with nodes that lie too deep. -/
def checkNesting (limit depth : Nat) : ClassNode → Except PatternError Unit
  | bracketed e _ inside => do inside.checkNesting limit (← deeper limit depth e)
  | union e items => do checkItems limit (← deeper limit depth e) items
  | combined e _ left right => do
    let d ← deeper limit depth e
    left.checkNesting limit d
    right.checkNesting limit d
  | _ => .ok ()

/-- Refuses items with nodes that lie too deep. -/
def checkItems (limit depth : Nat) : List ClassNode → Except PatternError Unit
  | [] => .ok ()
  | item :: rest => do
    item.checkNesting limit depth
    checkItems limit depth rest

end

end ClassNode

namespace PatternNode

/-- The stretch of a pattern. -/
def extent : PatternNode → Stretch
  | empty e | flags e _ | dot e | anchor e _ | letter e _ _ | property e _ | bracketed e _ _
  | repeated e _ _ | group e _ _ | alternatives e _ | sequence e _ => e
  | char c => c.extent

/-- Parts that follow each other, as one pattern. -/
def ofSequence (e : Stretch) : List PatternNode → PatternNode
  | [] => empty e
  | [part] => part
  | parts => sequence e parts

/-- Whether a pattern can be repeated. -/
def repeatable : PatternNode → Bool
  | empty _ | flags _ _ => false
  | _ => true

/-- How many classes, groups, repetitions, sequences and alternatives may lie in one another. -/
def nestLimit : Nat := 250

mutual

/-- Refuses a pattern with nodes that lie too deep. -/
def checkNesting (limit depth : Nat) : PatternNode → Except PatternError Unit
  | bracketed e _ inside => do inside.checkNesting limit (← ClassNode.deeper limit depth e)
  | repeated e _ body => do body.checkNesting limit (← ClassNode.deeper limit depth e)
  | group e _ body => do body.checkNesting limit (← ClassNode.deeper limit depth e)
  | alternatives e parts => do checkParts limit (← ClassNode.deeper limit depth e) parts
  | sequence e parts => do checkParts limit (← ClassNode.deeper limit depth e) parts
  | _ => .ok ()

/-- Refuses parts with nodes that lie too deep. -/
def checkParts (limit depth : Nat) : List PatternNode → Except PatternError Unit
  | [] => .ok ()
  | part :: rest => do
    part.checkNesting limit depth
    checkParts limit depth rest

end

end PatternNode

end ScriptLang
