import ScriptLang.Regex.Expression

/-!
# Programs for regular expressions

A program is an array of instructions that say where to go on.

* `PatternProgram.emit` writes the instructions for an expression in front of what follows it, and
  tells where they begin. A loop writes its branch first, so that its body can come back to it.
* A loop whose body may match nothing runs the body before it branches. So an empty round is tried
  where it was preferred and not where the loop is entered again.
-/

namespace ScriptLang

/-- One instruction of a program. -/
inductive Instruction where
  /-- A match. -/
  | accept
  /-- Passes over a character of a set. -/
  | chars (set : Ranges) (next : Nat)
  /-- Goes on if the place is right. -/
  | look (condition : Look) (next : Nat)
  /-- Notes the place. -/
  | save (slot next : Nat)
  /-- Goes on at two instructions, of which the first one is preferred. -/
  | branch (first second : Nat)
  deriving Inhabited

namespace PatternProgram

/-- Instructions written so far. -/
abbrev Code := Array Instruction

/-- Writes one instruction, and tells its index. -/
def write (i : Instruction) (code : Code) : Code × Nat := (code.push i, code.size)

/-- A branch that prefers to go into a loop if that is greedy. -/
def loopBranch (greedy : Bool) (into past : Nat) : Instruction :=
  if greedy then .branch into past else .branch past into

/-- So many times an expression that `one` writes. -/
def emitTimes (one : Nat → Code → Code × Nat) : Nat → Nat → Code → Code × Nat
  | 0, next, code => (code, next)
  | n + 1, next, code =>
    let (code, next) := one next code
    emitTimes one n next code

/-- Up to so many times an expression that `one` writes; each round may go to `past` instead. -/
def emitUpTo (one : Nat → Code → Code × Nat) (greedy : Bool) (past : Nat) :
    Nat → Nat → Code → Code × Nat
  | 0, next, code => (code, next)
  | n + 1, next, code =>
    let (code, into) := one next code
    let (code, branch) := write (loopBranch greedy into past) code
    emitUpTo one greedy past n branch code

/-- One time or more an expression that `one` writes: its beginning, and the branch behind it. -/
def emitAgain (one : Nat → Code → Code × Nat) (greedy : Bool) (next : Nat) (code : Code) :
    Code × Nat × Nat :=
  let (code, branch) := write .accept code
  let (code, into) := one branch code
  (code.setIfInBounds branch (loopBranch greedy into next), into, branch)

/-- Writes the instructions for an expression in front of `next`, and tells where they begin. -/
def emit : RegularExpr → Nat → Code → Code × Nat
  | .empty, next, code => (code, next)
  | .chars set, next, code => write (.chars set next) code
  | .look c, next, code => write (.look c next) code
  | .capture index _ body, next, code =>
    let (code, stop) := write (.save (2 * index + 1) next) code
    let (code, into) := emit body stop code
    write (.save (2 * index) into) code
  | .sequence a b, next, code =>
    let (code, between) := emit b next code
    emit a between code
  | .either a b, next, code =>
    let (code, second) := emit b next code
    let (code, first) := emit a next code
    write (.branch first second) code
  | .loop 0 none greedy body, next, code =>
    let (code, into, branch) := emitAgain (emit body) greedy next code
    if body.neverEmpty then (code, branch)
    else write (loopBranch greedy into next) code
  | .loop (n + 1) none greedy body, next, code =>
    let (code, into, _) := emitAgain (emit body) greedy next code
    emitTimes (emit body) n into code
  | .loop least (some most) greedy body, next, code =>
    let (code, next) := emitUpTo (emit body) greedy next (most - least) next code
    emitTimes (emit body) least next code

end PatternProgram

/-- A program with the place where it begins, and the groups that it notes. -/
structure PatternProgram where
  code : Array Instruction
  start : Nat
  /-- The number of groups, counting the whole match. -/
  groups : Nat
  /-- The groups with names. -/
  names : List (String × Nat)

/-- The program of an expression. -/
def PatternProgram.ofExpr (e : RegularExpr) : PatternProgram :=
  let (code, start) := PatternProgram.emit e 0 #[.accept]
  let groups := e.groups
  { code, start
    groups := groups.foldl (fun n g => max n (g.1 + 1)) 1
    names := groups.filterMap fun g => g.2.map (·, g.1) }

end ScriptLang
