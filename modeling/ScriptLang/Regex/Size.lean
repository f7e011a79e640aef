import Std.Data.HashMap
import ScriptLang.Regex.Expression
import ScriptLang.Text.Ranges

/-!
# The size of automata

A regular expression is refused if an automaton for it would take too many bytes. The automata work
on the bytes of UTF-8; there is one for reading forwards and one for reading backwards.

* `Utf8.bytes` are the bytes of a code point. `Utf8.sequences` splits a range of code points so that
  each piece is all that some ranges of bytes spell: the bytes of its first and of its last code
  point bound them, place by place.
* `Automaton.Size` counts the states and what they take beyond a fixed amount: the transitions of
  states that branch by bytes, and the targets of states that branch without reading.
* `Automaton.forwardClass` and `Automaton.backwardClass` count a set of characters. Reading
  forwards, states that go on alike are one state; reading backwards, characters share how they
  end. Both look for such states in a table of limited room, in which a newer entry takes the place
  of an older one.
* `RegularExpr.fits` decides whether neither automaton exceeds `Automaton.limit`.
-/

namespace ScriptLang

/-! ### Characters as bytes -/

namespace Utf8

/-- A range of bytes. -/
abbrev ByteRange := Nat × Nat

/-- The bytes of a code point. -/
def bytes (n : Nat) : List Nat :=
  if n < 0x80 then [n]
  else if n < 0x800 then [0xC0 + n / 64, 0x80 + n % 64]
  else if n < 0x10000 then [0xE0 + n / 4096, 0x80 + n / 64 % 64, 0x80 + n % 64]
  else [0xF0 + n / 262144, 0x80 + n / 4096 % 64, 0x80 + n / 64 % 64, 0x80 + n % 64]

/-- The code points that have as many bytes, without the surrogates, which have none. -/
def spans : List (Nat × Nat) :=
  [(0, 0x7F), (0x80, 0x7FF), (0x800, 0xD7FF), (0xE000, 0xFFFF), (0x10000, 0x10FFFF)]

/-- The pieces of a range that lie in blocks of a size, or are made of whole blocks. -/
def cut (size : Nat) (range : Nat × Nat) : List (Nat × Nat) :=
  let (first, last) := range
  if first / size = last / size then [range]
  else
    let aligned := if first % size = 0 then first else (first / size + 1) * size
    let head := if first % size = 0 then [] else [(first, aligned - 1)]
    let tail := last / size * size
    if aligned / size = last / size || last % size = size - 1 then head ++ [(aligned, last)]
    else head ++ [(aligned, tail - 1), (tail, last)]

/-- The ranges of bytes for a range of code points, sequence by sequence. -/
def sequences (range : Nat × Nat) : List (List ByteRange) :=
  let pieces := spans.filterMap fun span =>
    let first := max range.1 span.1
    let last := min range.2 span.2
    if first ≤ last then some (first, last) else none
  let pieces := pieces.flatMap fun p =>
    if p.2 < 0x80 then [p] else (cut 64 p).flatMap (cut 4096) |>.flatMap (cut 262144)
  pieces.map fun (first, last) => (bytes first).zip (bytes last)

/-- The ranges of bytes for a set of characters. -/
def sequencesOf (set : Ranges) : List (List ByteRange) := set.bounds.toList.flatMap sequences

end Utf8

/-! ### Automata -/

namespace Automaton

/-- The bytes that no automaton may exceed. -/
def limit : Nat := 10 * Nat.pow 2 20

/-- The size of the part of an automaton that has been built. -/
structure Size where
  states : Nat
  /-- The bytes beyond those that every state takes. -/
  extra : Nat

/-- The bytes of a size. -/
def Size.bytes (s : Size) : Nat := 32 * s.states + s.extra

/-- A step of building, which fails where the limit is exceeded. -/
abbrev Building := StateT Size Option

/-- Adds a state with so many bytes of its own, and tells its number. -/
def addState (extra : Nat) : Building Nat := fun s =>
  let t : Size := ⟨s.states + 1, s.extra + extra⟩
  if limit < t.bytes then none else some (s.states, t)

/-- Adds targets to a state that branches without reading. -/
def addTargets (count : Nat) : Building Unit := fun s =>
  let t : Size := ⟨s.states, s.extra + 4 * count⟩
  if limit < t.bytes then none else some ((), t)

/-- Links the end of a part, which takes room if the part ends in a branch. -/
def link (branches : Bool) : Building Unit := addTargets (if branches then 1 else 0)

/-- The slot of a key in a table. -/
def slot (room : UInt64) (key : List Nat) : UInt64 :=
  key.foldl (fun h n => (h ^^^ n.toUInt64) * 1099511628211) 14695981039346656037 % room

/-- States with what they were made for, each in the slot of its key. -/
abbrev Table := Std.HashMap UInt64 (List Nat × Nat)

/-- The state of a key, which is made if the table does not have it. -/
def stateOf (room : UInt64) (key : List Nat) (extra : Nat) (table : Table) :
    Building (Nat × Table) := do
  let place := slot room key
  match table[place]? with
  | some (known, state) => if known = key then return (state, table)
  | none => pure ()
  let state ← addState extra
  return (state, table.insert place (key, state))

mutual

/-- The state from which some sequences of bytes are read, up to the state `target`. The sequences
are no longer than the bound that comes first. -/
def forwardState (target : Nat) :
    Nat → List (List Utf8.ByteRange) → Table → Building (Nat × Table)
  | 0, _, table => return (target, table)
  | depth + 1, sequences, table => do
    let groups := sequences.splitBy fun a b => a.head? == b.head?
    let (edges, table) ← forwardEdges target depth groups table
    stateOf 10000 edges (8 * groups.length) table

/-- The edges for groups of sequences, each of which begins with one range of bytes. -/
def forwardEdges (target depth : Nat) :
    List (List (List Utf8.ByteRange)) → Table → Building (List Nat × Table)
  | [], table => return ([], table)
  | group :: rest, table => do
    let tails := (group.map List.tail).filter (!·.isEmpty)
    let (next, table) ←
      if tails.isEmpty then pure (target, table) else forwardState target depth tails table
    let (edges, table) ← forwardEdges target depth rest table
    let (first, last) := (group.head?.bind List.head?).getD (0, 0)
    return (first :: last :: next :: edges, table)

end

/-- Builds the forward automaton of a set of characters. -/
def forwardClass (set : Ranges) : Building Unit := do
  let target ← addState 0
  let _ ← forwardState target 4 (Utf8.sequencesOf set) ∅

/-- Builds the states that read some ranges of bytes and go on at a state; the last range is read
first. -/
def backwardStates : List Utf8.ByteRange → Nat → Table → Building Table
  | [], _, table => return table
  | (first, last) :: rest, next, table => do
    let (state, table) ← stateOf 1000 [next, first, last] 0 table
    backwardStates rest state table

/-- Builds the backward automaton of some sequences of bytes, each the target of one branch. -/
def backwardSequences (target : Nat) : List (List Utf8.ByteRange) → Table → Building Unit
  | [], _ => return
  | sequence :: rest, table => do
    let table ← backwardStates sequence target table
    addTargets 1
    backwardSequences target rest table

/-- Builds the backward automaton of a set of characters. -/
def backwardClass (set : Ranges) : Building Unit := do
  let _ ← addState 0
  let target ← addState 0
  backwardSequences target (Utf8.sequencesOf set) ∅

/-- Adds so many states that read one byte each. -/
def addBytes : Nat → Building Unit
  | 0 => return
  | n + 1 => do
    let _ ← addState 0
    addBytes n

/-- Builds a set of characters. -/
def addSet (backward : Bool) (set : Ranges) : Building Unit := do
  match (RegularExpr.chars set).single? with
  | some n => addBytes (Utf8.bytes n).length
  | none =>
    if set.isAscii then
      let _ ← addState 0
      let _ ← addState (8 * set.bounds.size)
    else if backward then backwardClass set
    else forwardClass set

/-- The bytes of an expression that is nothing but characters. -/
def word? (e : RegularExpr) : Option (List Nat) :=
  if e.parts.isEmpty then none
  else (e.parts.mapM RegularExpr.single?).map fun ns => ns.flatMap Utf8.bytes

/-- Words between those that are empty. -/
def segments : List (List Nat) → List (List (List Nat))
  | [] => [[]]
  | [] :: rest => [] :: segments rest
  | word :: rest =>
    match segments rest with
    | [] => [[word]]
    | segment :: more => (word :: segment) :: more

/-- Builds the tree of words, the earlier ones preferred. The words are no longer than the bound
that comes first. An empty word is an end, so what follows it needs a state of its own. -/
def addTree : Nat → List (List Nat) → Building Unit
  | 0, _ => return
  | depth + 1, words => do
    if words.all List.isEmpty then return
    let words := match words with
      | [] :: rest => [] :: rest.dropWhile List.isEmpty
      | words => words
    let segments := segments words
    let heads := (segments.map fun s => (s.filterMap List.head?).eraseDups).filter (!·.isEmpty)
    segments.forM fun s =>
      (s.filterMap List.head?).eraseDups.forM fun b =>
        addTree depth ((s.filter (·.head? == some b)).map List.tail)
    heads.forM fun bytes => do
      let _ ← addState (if bytes.length = 1 then 0 else 8 * bytes.length)
    let _ ← addState (4 * (heads.length + (segments.length - 1)))

/-- So many times what `one` builds, one after the other. -/
def addTimes (one : Building Bool) : Nat → Building Bool
  | 0 => do
    let _ ← addState 0
    return false
  | n + 1 => fun s =>
    match one s with
    | none => none
    | some (branches, s) => again n branches s
where
  /-- The rest of the times, behind one that ends in a branch or not. -/
  again : Nat → Bool → Building Bool
    | 0, branches, s => some (branches, s)
    | n + 1, branches, s =>
      match one s with
      | none => none
      | some (next, s) =>
        match link branches s with
        | none => none
        | some (_, s) => again n next s

/-- Up to so many times what `one` builds, each behind a branch. `branches` is whether what comes
before ends in one. -/
def addUpTo (one : Building Bool) : Nat → Bool → Building Unit
  | 0, branches, s => link branches s
  | n + 1, branches, s =>
    match (do let _ ← addState 8; let next ← one; link branches; return next : Building Bool) s with
    | none => none
    | some (next, s) => addUpTo one n next s

/-- Builds what `one` builds as often as a loop demands. `neverEmpty` is whether it always reads
something. -/
def addLoop (one : Building Bool) (neverEmpty : Bool) (least : Nat) (most : Option Nat) :
    Building Bool := do
  match least, most with
  | 0, some 1 =>
    let _ ← addState 8
    let branches ← one
    let _ ← addState 0
    link branches
    return false
  | 0, none =>
    if neverEmpty then
      let _ ← addState 4
      link (← one)
      return true
    else
      let branches ← one
      let _ ← addState 8
      let _ ← addState 8
      let _ ← addState 0
      link branches
      return false
  | 1, none =>
    let branches ← one
    let _ ← addState 4
    link branches
    return true
  | n + 1, none =>
    let before ← addTimes one n
    let branches ← one
    let _ ← addState 4
    link before
    link branches
    return true
  | least, some most =>
    let branches ← addTimes one least
    if least = most then return branches
    else
      let _ ← addState 0
      addUpTo one (most - least) branches
      return false

/-- The places that an expression can have among alternatives. -/
inductive Place where
  | alone | second | later

/-- Joins an alternative to those before it. -/
def Place.join (place : Place) (branches : Bool) : Building Bool := do
  match place with
  | alone => return branches
  | second =>
    let _ ← addState 0
    let _ ← addState 0
    addTargets 1
    link branches
    return false
  | later =>
    addTargets 1
    link branches
    return false

/-- Builds an expression, and tells whether it ends in a branch. -/
def addExpr (backward : Bool) : RegularExpr → Place → Building Bool
  | .empty, place | .look _, place => do
    let _ ← addState 0
    place.join false
  | .chars set, place => do
    addSet backward set
    place.join false
  | .capture _ _ body, place => do
    if backward then place.join (← addExpr backward body .alone)
    else
      let _ ← addState 0
      let branches ← addExpr backward body .alone
      let _ ← addState 0
      link branches
      place.join false
  | .sequence a b, place => do
    if backward then
      let before ← addExpr backward b .alone
      let branches ← addExpr backward a .alone
      link before
      place.join branches
    else
      let before ← addExpr backward a .alone
      let branches ← addExpr backward b .alone
      link before
      place.join branches
  | .loop least most _ body, place => do
    place.join (← addLoop (addExpr backward body .alone) body.neverEmpty least most)
  | .either a b, .alone => do
    match (RegularExpr.either a b).choices.mapM word? with
    | some words =>
      let words := if backward then words.map List.reverse else words
      let _ ← addState 0
      addTree (words.foldl (fun n w => max n (w.length + 1)) 0) words
      return false
    | none =>
      addTargets 1
      link (← addExpr backward a .alone)
      addExpr backward b .second
  | .either a b, place => do
    let _ ← place.join (← addExpr backward a .alone)
    addExpr backward b .later

/-- Whether all matches lie at an end of the text, given whether a condition says so. -/
def anchored (isEnd : Look → Bool) (backward : Bool) : RegularExpr → Bool
  | .empty | .chars _ => false
  | .look c => isEnd c
  | .capture _ _ body => anchored isEnd backward body
  | .sequence a b =>
    if backward then anchored isEnd backward b || (b.onlyEmpty && anchored isEnd backward a)
    else anchored isEnd backward a || (a.onlyEmpty && anchored isEnd backward b)
  | .either a b => anchored isEnd backward a && anchored isEnd backward b
  | .loop least _ _ body => 0 < least && anchored isEnd backward body

/-- Builds the automaton for reading forwards. -/
def addForward (e : RegularExpr) : Building Unit := do
  if anchored (· = .textStart) false e then
    let _ ← addState 0
  else
    addTargets 2
    addBytes 2
    let _ ← addState 8
  let _ ← addExpr false (.capture 0 none e) .alone
  let _ ← addState 0

/-- Builds the automaton for reading backwards. -/
def addBackward (e : RegularExpr) : Building Unit := do
  if anchored (· = .textEnd) true e then
    let _ ← addState 0
  else
    addTargets 2
    addBytes 2
    let _ ← addState 8
  let branches ← addExpr true e .alone
  let _ ← addState 0
  link branches

/-- The sequences of bytes that a range of code points takes at most. -/
def sequencesAtMost (range : Nat × Nat) : Nat :=
  if range.1 / 64 = range.2 / 64 then 1 else if range.1 / 4096 = range.2 / 4096 then 6 else 35

/-- A size that no automaton for an expression exceeds, as if there were no states in common. -/
def bound : RegularExpr → Nat
  | .empty | .look _ => 100
  | .chars set => set.bounds.foldl (fun n r => n + 172 * sequencesAtMost r) 200
  | .capture _ _ body => 100 + bound body
  | .sequence a b => 100 + bound a + bound b
  | .either a b => 200 + bound a + bound b
  | .loop least most _ body => 200 + (max least (most.getD (least + 1))) * (100 + bound body)

end Automaton

/-- Whether the automata for an expression are small enough. They are built only if a bound for
their sizes does not show it. -/
def RegularExpr.fits (e : RegularExpr) : Bool :=
  500 + Automaton.bound e ≤ Automaton.limit ||
    ((Automaton.addForward e ⟨0, 0⟩).isSome && (Automaton.addBackward e ⟨0, 0⟩).isSome)

end ScriptLang
