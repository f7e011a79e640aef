import ScriptLang.Regex.Meaning
import ScriptLang.Regex.Program
import ScriptLang.Regex.Size

/-!
# Searching with regular expressions

A program runs over a text with a list of threads, the preferred one first. Of several threads at
one instruction only the first goes on, so a run takes time in proportion to text and program.

* `Regex.explore` follows the instructions that pass over no character.
* `Regex.search` finds the first match from a place on; of the matches that begin there it is the
  one that preferences choose.
* `Regex.searchAll` lists matches one after the other. An empty match at the end of the one before
  does not count.
-/

namespace ScriptLang

/-- A regular expression, ready to search. -/
structure Regex where
  program : PatternProgram

/-- A match: for every group the places where it begins and ends, if it takes part. The first group
is the whole match. -/
structure RegexMatch where
  groups : Array (Option (Nat × Nat))
  deriving DecidableEq, Repr

namespace RegexMatch

/-- Where the match begins and ends. -/
def whole (m : RegexMatch) : Nat × Nat := (m.groups.getD 0 none).getD (0, 0)

/-- The places of a group. -/
def group? (m : RegexMatch) (i : Nat) : Option (Nat × Nat) := m.groups.getD i none

end RegexMatch

namespace Regex

/-- A place in a program, with the places in the text noted on the way. -/
structure Thread where
  state : Nat
  slots : Array (Option Nat)
  deriving Inhabited

/-- Threads at one place of the text, the preferred one first, and for every instruction one more
than the last place where a thread came to it. -/
structure Front where
  threads : Array Thread
  seen : Array Nat

/-- Follows instructions up to those that pass over a character or accept. The stack holds threads
that have still to be followed; a bound on the number of steps comes first. -/
def explore (code : Array Instruction) (text : Array Char) (place : Nat) :
    Nat → List Thread → Front → Front
  | 0, _, front => front
  | _, [], front => front
  | n + 1, t :: stack, front =>
    if front.seen.getD t.state 0 = place + 1 then explore code text place n stack front
    else
      let front := { front with seen := front.seen.setIfInBounds t.state (place + 1) }
      match code[t.state]? with
      | none => explore code text place n stack front
      | some .accept | some (.chars _ _) =>
        explore code text place n stack { front with threads := front.threads.push t }
      | some (.look c next) =>
        let before := if place = 0 then none else text[place - 1]?
        if c.holds before text[place]? then
          explore code text place n (⟨next, t.slots⟩ :: stack) front
        else explore code text place n stack front
      | some (.save slot next) =>
        let slots := t.slots.setIfInBounds slot (some place)
        explore code text place n (⟨next, slots⟩ :: stack) front
      | some (.branch a b) =>
        explore code text place n (⟨a, t.slots⟩ :: ⟨b, t.slots⟩ :: stack) front

/-- Follows one more thread behind those of a front. -/
def follow (code : Array Instruction) (text : Array Char) (place : Nat) (t : Thread)
    (front : Front) : Front :=
  explore code text place (2 * code.size + 2) [t] front

/-- Passes over the character at a place. The first thread that accepts ends the list, since what is
behind it is less preferred; its slots are the second result. -/
def advance (code : Array Instruction) (text : Array Char) (place : Nat) :
    List Thread → Front → Front × Option (Array (Option Nat))
  | [], next => (next, none)
  | t :: rest, next =>
    match code[t.state]?, text[place]? with
    | some .accept, _ => (next, some (t.slots.setIfInBounds 1 (some place)))
    | some (.chars set target), some c =>
      if set.contains c.toNat then
        advance code text place rest (follow code text (place + 1) ⟨target, t.slots⟩ next)
      else advance code text place rest next
    | _, _ => advance code text place rest next

/-- Runs from a place on, with the threads there and the best match so far. A bound on the number of
places comes first. -/
def runFrom (p : PatternProgram) (text : Array Char) :
    Nat → Nat → Front → Option (Array (Option Nat)) → Option (Array (Option Nat))
  | 0, _, _, best => best
  | n + 1, place, front, best =>
    let front :=
      if best.isNone then
        let slots := (Array.replicate (2 * p.groups) none).setIfInBounds 0 (some place)
        follow p.code text place ⟨p.start, slots⟩ front
      else front
    if best.isSome && front.threads.isEmpty then best
    else
      let (next, found) := advance p.code text place front.threads.toList ⟨#[], front.seen⟩
      let best := found.orElse fun _ => best
      if place < text.size then runFrom p text n (place + 1) next best else best

/-- The match that slots describe. -/
def matchOf (groups : Nat) (slots : Array (Option Nat)) : RegexMatch where
  groups := Array.ofFn fun i : Fin groups =>
    match slots.getD (2 * i) none, slots.getD (2 * i + 1) none with
    | some a, some b => some (a, b)
    | _, _ => none

/-- The first match from a place on. -/
def search (r : Regex) (text : Array Char) (place : Nat) : Option RegexMatch :=
  if text.size < place then none
  else
    let front : Front := ⟨#[], Array.replicate r.program.code.size 0⟩
    (runFrom r.program text (text.size - place + 1) place front none).map
      (matchOf r.program.groups)

/-- The next match from a place on, where a match has ended there if `last` says so. -/
def searchNext (r : Regex) (text : Array Char) (place : Nat) (last : Bool) : Option RegexMatch :=
  match r.search text place with
  | none => none
  | some m =>
    if last && m.whole.1 == m.whole.2 && m.whole.2 == place then r.search text (place + 1)
    else some m

/-- The matches from a place on; a bound on their number comes first. -/
def searchFrom (r : Regex) (text : Array Char) : Nat → Nat → Bool → List RegexMatch
  | 0, _, _ => []
  | n + 1, place, last =>
    match r.searchNext text place last with
    | none => []
    | some m => m :: searchFrom r text n m.whole.2 true

/-- All matches, one after the other. -/
def searchAll (r : Regex) (text : Array Char) : List RegexMatch :=
  r.searchFrom text (text.size + 1) 0 false

/-- The message for a program that would be too large. -/
def tooLarge : String := s!"Compiled regex exceeds size limit of {Automaton.limit} bytes."

/-- The regular expression of a pattern, or what is wrong with the pattern. -/
def compile (f : PatternFlags) (pattern : String) : Except String Regex :=
  match RegularExpr.ofPattern f pattern with
  | .error e => .error (e.render pattern)
  | .ok expr =>
    if expr.fits then .ok ⟨.ofExpr expr⟩ else .error tooLarge

end Regex

end ScriptLang
