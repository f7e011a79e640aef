import ScriptLang.Text.Case
import ScriptLang.Text.Ranges

/-!
# Equality of characters up to case

Two characters are equal up to case if they have the same simple case folding.

* `Fold.image` is the folding of a character; folding twice is folding once.
* `Fold.closure` adds to a set all characters that are equal up to case to one of its members.
-/

namespace ScriptLang.Fold

/-- The characters that differ from their folding. -/
def runs : List CaseRun := CaseRun.decode
  ["41 1a 1 40 74 1 1 60e b 17 1 40 18 7 1 40 28 18 2 2 32 3 2 2 7 8 2 2 11 17 2 2 2e 1 1 f1 1 3",
   "2 2 6 1 1 217 2 1 1 1a4 1 2 2 2 4 1 1 19c 1 1 1 2 2 2 1 19a 2 1 1 2 3 1 1 9e 1 1 1 194 1 1 1",
   "196 1 1 1 2 2 1 1 19a 1 1 1 19e 2 1 1 1a6 1 1 1 1a2 1 1 1 2 4 1 1 1a6 1 1 1 1aa 2 1 1 1ac 1",
   "3 2 2 6 1 1 1b4 1 1 1 2 2 1 1 1b4 3 1 1 2 2 1 1 1b4 1 1 1 2 2 2 1 1b2 2 2 2 2 4 1 1 1b6 1 1",
   "1 2 4 1 1 2 8 1 1 4 1 1 1 2 2 1 1 4 1 1 1 2 2 1 1 4 1 9 2 2 13 9 2 2 13 1 1 4 1 2 2 2 4 1 1",
   "c1 1 1 1 6f 1 14 2 2 28 1 1 103 2 9 2 2 18 1 1 5456 1 1 1 2 2 1 1 145 1 1 1 5450 3 1 1 2 2 1",
   "1 185 1 1 1 8a 1 1 1 8e 1 5 2 2 ff 1 1 e8 2b 2 2 2 6 1 1 2 9 1 1 e8 7 1 1 4c 2 3 1 4a 4 1 1",
   "80 2 2 1 7e 3 11 1 40 12 9 1 40 1f 1 1 2 d 1 1 10 1 1 1 3b 1 1 1 31 4 1 1 1d 1 1 1 2b 2 c 2",
   "2 18 1 1 6b 1 1 1 5f 3 1 1 77 1 1 1 7f 2 1 1 2 2 1 1 d 1 1 1 2 3 3 1 103 3 10 1 a0 10 20 1",
   "40 50 11 2 2 2a 1b 2 2 36 1 1 1e 1 7 2 2 f 30 2 2 61 26 1 60 b6f 26 1 38c0 27 1 1 38c0 6 1 1",
   "38c0 32b 6 1 f 888 1 1 309b 1 1 1 3099 1 1 1 3087 1 2 1 3083 2 1 1 3085 1 1 1 3077 1 1 1",
   "3047 1 1 1 11386 1 1 1 2 7 2b 1 177f 2d 3 1 177f 143 4b 2 2 9b 1 1 73 3 1 1 3b7d 2 30 2 2 68",
   "8 1 f 10 6 1 f 10 8 1 f 10 8 1 f 10 6 1 f 11 4 2 f f 8 1 f 20 8 1 f 10 8 1 f 10 8 1 f 10 2 1",
   "f 2 2 1 93 2 1 1 11 2 1 1 3809 a 4 1 ab 4 1 1 11 7 1 1 3885 5 2 1 f 2 2 1 c7 9 1 1 3865 5 2",
   "1 f 2 2 1 df 2 1 1 d c 2 1 ff 2 2 1 fb 2 1 1 11 12a 1 1 3ab9 4 1 1 417d 1 1 1 408b 7 1 1 38",
   "2e 10 1 20 23 1 1 2 333 1a 1 34 74a 30 1 60 60 1 1 2 2 1 1 53ed 1 1 1 1dcb 1 1 1 53cd 3 3 2",
   "2 6 1 1 5437 1 1 1 53f9 1 1 1 543d 1 1 1 543b 2 1 1 2 3 1 1 2 9 2 1 547d 2 32 2 2 6b 2 2 2 7",
   "1 1 2 794e 17 2 2 40 e 2 2 a2 7 2 2 10 1f 2 2 47 2 2 2 4 1 1 11407 1 5 2 2 d 1 1 2 2 1 1",
   "14a4f 3 2 2 2 6 a 2 2 14 1 1 14a87 1 1 1 14a9d 1 1 1 14a95 1 1 1 14a81 1 1 1 14a87 2 1 1",
   "14a23 1 1 1 14a53 1 1 1 14a29 1 1 1 740 1 8 2 2 10 1 1 5f 1 1 1 14a85 1 1 1 1146f 1 2 2 2 4",
   "1 1 14acd 1 1 1 2 4 1 1 2 6 3 2 2 6 1 1 14c81 19 1 1 2 37b 50 1 12f9f 4f95 1 1 2 41c 1a 1 40",
   "4df 28 1 50 b0 24 1 50 c0 b 1 4e c f 1 4e 10 7 1 4e 8 2 1 4e 6ec 33 1 80 d0 16 1 40 b50 20 1",
   "40 55a0 20 1 40 7ac0 22 1 44"]

/-- The code points of a run with their foldings. -/
def pairsOf (r : CaseRun) : List (Nat × Nat) :=
  (List.range r.count).map fun i =>
    let n := r.first + i * r.stride
    (n, ((n : Int) + r.shift).toNat)

/-- All code points that differ from their folding, with it. -/
def pairs : List (Nat × Nat) := runs.flatMap pairsOf

/-- The folding of a code point. -/
def image (n : Nat) : Nat := (runs.findSome? (·.image? n)).getD n

/-- The set with all code points that are equal up to case to one of its members: the foldings of
its members, and whatever is folded into one of these. -/
def closure (r : Ranges) : Ranges :=
  let images := pairs.filterMap fun (n, m) => if r.contains n then some (m, m) else none
  let folded := r.union (.ofList images)
  folded.union <| .ofList <| pairs.filterMap fun (n, m) =>
    if folded.contains m then some (n, n) else none

/-- The set with the other case of its ASCII letters. -/
def closureAscii (r : Ranges) : Ranges :=
  let moved (first : Nat) (shift : Int) : List (Nat × Nat) :=
    (List.range 26).filterMap fun i =>
      let n := first + i
      let m := ((n : Int) + shift).toNat
      if r.contains n then some (m, m) else none
  r.union (.ofList (moved 0x41 32 ++ moved 0x61 (-32)))

end ScriptLang.Fold
