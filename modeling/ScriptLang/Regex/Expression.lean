import ScriptLang.Text.Ranges

/-!
# Regular expressions

What is left of a pattern when its flags have been applied.

* `Look` is a condition on a place between two characters; `Look.holds` decides it from the
  characters before and after the place.
* `RegularExpr` are the expressions. `RegularExpr.repeated` does not repeat what is only empty, and
  drops what may not occur at all, with the groups in it.
* Sequences and alternatives are kept flat (`RegularExpr.ofSequence`, `RegularExpr.ofAlternatives`).
  Alternatives of single characters are one set of characters, and what all alternatives begin with
  is taken out of them.
-/

namespace ScriptLang

/-- Conditions on the beginnings and ends of words. -/
inductive WordLook where
  | boundary | noBoundary | start | stop | startHalf | stopHalf
  deriving DecidableEq, Repr

/-- Conditions on a place. -/
inductive Look where
  | textStart
  | textEnd
  | lineStart
  | lineEnd
  /-- As the start of a line, but carriage returns end lines as well. -/
  | returnLineStart
  | returnLineEnd
  /-- Words are made of the characters of a set. -/
  | word (kind : WordLook) (members : Ranges)
  deriving DecidableEq

/-- Whether a condition on words holds between characters of which the one before and the one after
are of words, or not. -/
def WordLook.holds : WordLook → Bool → Bool → Bool
  | boundary, before, after => before != after
  | noBoundary, before, after => before == after
  | start, before, after => !before && after
  | stop, before, after => before && !after
  | startHalf, before, _ => !before
  | stopHalf, _, after => !after

/-- Whether a condition holds between two characters; none stands for an end of the text. -/
def Look.holds : Look → Option Char → Option Char → Bool
  | textStart, before, _ => before.isNone
  | textEnd, _, after => after.isNone
  | lineStart, before, _ => before.all (· == '\n')
  | lineEnd, _, after => after.all (· == '\n')
  | returnLineStart, before, after =>
    before.all (· == '\n') || (before == some '\r' && after != some '\n')
  | returnLineEnd, before, after =>
    after.all (· == '\r') || (after == some '\n' && before != some '\r')
  | word kind members, before, after =>
    kind.holds (before.any (members.contains ·.toNat)) (after.any (members.contains ·.toNat))

/-- Regular expressions. -/
inductive RegularExpr where
  | empty
  | chars (set : Ranges)
  | look (condition : Look)
  | capture (index : Nat) (name : Option String) (body : RegularExpr)
  | sequence (first second : RegularExpr)
  /-- The first one is preferred. -/
  | either (first second : RegularExpr)
  | loop (least : Nat) (most : Option Nat) (greedy : Bool) (body : RegularExpr)
  deriving DecidableEq

namespace RegularExpr

/-- Whether all matches are empty. -/
def onlyEmpty : RegularExpr → Bool
  | empty | look _ => true
  | chars _ => false
  | capture _ _ body => body.onlyEmpty
  | sequence a b | either a b => a.onlyEmpty && b.onlyEmpty
  | loop _ _ _ body => body.onlyEmpty

/-- Whether no match is empty. -/
def neverEmpty : RegularExpr → Bool
  | empty | look _ => false
  | chars _ => true
  | capture _ _ body => body.neverEmpty
  | sequence a b => a.neverEmpty || b.neverEmpty
  | either a b => a.neverEmpty && b.neverEmpty
  | loop least _ _ body => 0 < least && body.neverEmpty

/-- An expression, repeated. -/
def repeated (least : Nat) (most : Option Nat) (greedy : Bool) (body : RegularExpr) :
    RegularExpr :=
  let least := if body.onlyEmpty then min least 1 else least
  let most := if body.onlyEmpty then some (min (most.getD 1) 1) else most
  if least = 0 && most = some 0 then empty
  else if least = 1 && most = some 1 then body
  else loop least most greedy body

/-- The only character that an expression stands for, by its code point. -/
def single? : RegularExpr → Option Nat
  | chars set =>
    match set.bounds.toList with
    | [(first, last)] => if first = last then some first else none
    | _ => none
  | _ => none

/-- The parts of a sequence, in order. -/
def parts : RegularExpr → List RegularExpr
  | empty => []
  | sequence a b => a :: b.parts
  | e => [e]

/-- The alternatives of an expression, in order. -/
def choices : RegularExpr → List RegularExpr
  | either a b => a :: b.choices
  | e => [e]

/-- Parts one after the other. -/
def nested : List RegularExpr → RegularExpr
  | [] => empty
  | [e] => e
  | e :: es => sequence e (nested es)

/-- Expressions one after the other. -/
def ofSequence (es : List RegularExpr) : RegularExpr := nested (es.flatMap parts)

/-- Alternatives, the first ones preferred. -/
def nestedChoices : List RegularExpr → RegularExpr
  | [] => chars Ranges.empty
  | [e] => e
  | e :: es => either e (nestedChoices es)

/-- The set of characters of an expression that is one. -/
def set? : RegularExpr → Option Ranges
  | chars set => some set
  | _ => none

/-- Whether an expression is a set of characters, but no single one. -/
def isClass (e : RegularExpr) : Bool := e.set?.isSome && e.single?.isNone

/-- Expressions of which one is to match, the first ones preferred. Without any, nothing matches. -/
def merged (es : List RegularExpr) : RegularExpr :=
  let all := es.flatMap choices
  if 1 < all.length && (all.all (·.single?.isSome) || all.all isClass) then
    chars (.unions (all.filterMap set?))
  else nestedChoices all

/-- The parts of a sequence, with characters that follow each other as one part. -/
def pieces (e : RegularExpr) : List RegularExpr :=
  (e.parts.splitBy fun a b => a.single?.isSome && b.single?.isSome).map nested

/-- What two lists have in common at their beginnings. -/
def commonStart : List RegularExpr → List RegularExpr → List RegularExpr
  | a :: as, b :: bs => if a = b then a :: commonStart as bs else []
  | _, _ => []

/-- What all alternatives begin with, if each has more than one piece. -/
def sharedStart : List RegularExpr → List RegularExpr
  | [] => []
  | e :: es =>
    if (e :: es).all fun c => 1 < c.pieces.length then
      es.foldl (fun start c => commonStart start c.pieces) e.pieces
    else []

/-- Expressions of which one is to match, without what all of them begin with, and this before them.
-/
def ofAlternatives (es : List RegularExpr) : RegularExpr :=
  let whole := merged es
  let all := whole.choices
  let start := if 1 < all.length then sharedStart all else []
  if start.isEmpty then whole
  else
    let rests := all.map fun c => ofSequence (c.pieces.drop start.length)
    ofSequence (start ++ [merged rests])

/-- The groups of an expression, with their names, in the order of their numbers. -/
def groups : RegularExpr → List (Nat × Option String)
  | empty | chars _ | look _ => []
  | capture index name body => (index, name) :: body.groups
  | sequence a b | either a b => a.groups ++ b.groups
  | loop _ _ _ body => body.groups

end RegularExpr

end ScriptLang
