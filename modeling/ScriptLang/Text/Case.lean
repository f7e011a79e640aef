import ScriptLang.Text.Pieces
import ScriptLang.Text.Ranges

/-!
# Upper and lower case

The full case mappings of Unicode, in which one character may become several.

* `Case.upper` and `Case.lower` map a text. A capital sigma at the end of a word becomes the final
  form of the small one (`Case.endsWord`); no other mapping looks at its neighbours.
* `Case.capitalize` maps the first character of a text to upper case, and `Case.title` the first
  character of every word between spaces, after mapping all to lower case.
* The tables hold runs of characters at equal distances from each other and from their images
  (`CaseRun`), and the few characters that become several.
-/

namespace ScriptLang

/-- Characters whose images lie at one distance from them. -/
structure CaseRun where
  /-- The first code point. -/
  first : Nat
  /-- The number of characters. -/
  count : Nat
  /-- The distance between them. -/
  stride : Nat
  /-- The distance of the image. -/
  shift : Int
  deriving Inhabited, DecidableEq

namespace CaseRun

/-- The image of a code point, if the run has it. -/
def image? (r : CaseRun) (n : Nat) : Option Nat :=
  if r.first ≤ n && n < r.first + r.count * r.stride && (n - r.first) % r.stride == 0 then
    some ((n : Int) + r.shift).toNat
  else none

/-- The runs of a compact table: numbers by fours, the distance from the last run, the count, the
stride, and the shift, whose sign is its last bit. -/
def ofNumbers : Nat → List Nat → List CaseRun
  | start, gap :: count :: stride :: shift :: rest =>
    let s : Int := if shift % 2 = 0 then shift / 2 else -((shift + 1) / 2)
    ⟨start + gap, count, stride, s⟩ :: ofNumbers (start + gap) rest
  | _, _ => []

/-- The runs of a compact table, given in pieces. -/
def decode (pieces : List String) : List CaseRun :=
  ofNumbers 0 (pieces.flatMap fun p => Ranges.numbers p.toList 0 false)

end CaseRun

namespace Case

/-- The characters with one character as their upper case. -/
def upperRuns : List CaseRun := CaseRun.decode
  ["b5 1 1 5ce 2b 17 1 3f 18 7 1 3f 7 1 1 f2 2 18 2 1 30 1 1 1cf 2 3 2 1 7 8 2 1 11 17 2 1 2f 3",
   "2 1 5 1 1 257 1 1 1 186 3 2 2 1 5 1 1 1 4 1 1 1 6 1 1 1 3 1 1 c2 4 1 1 1 1 1 1 146 1 1 1",
   "14c82 3 1 1 104 3 3 2 1 7 1 1 1 5 1 1 1 3 1 1 1 4 2 2 1 5 1 1 1 4 1 1 1 2 1 1 70 6 1 1 1 1 1",
   "1 3 2 1 1 1 1 1 1 3 2 1 1 1 1 1 1 3 2 8 2 1 f 1 1 9d 2 9 2 1 13 1 1 1 1 1 1 3 2 1 1 1 4 14 2",
   "1 2a 9 2 1 19 1 1 1 3 2 1 547e 3 1 1 1 5 5 2 1 9 1 1 543e 1 1 1 5438 1 1 1 543c 1 1 1 1a3 1",
   "1 1 19b 2 2 1 199 3 1 1 193 2 1 1 195 1 1 1 14a9e 4 1 1 199 1 1 1 14a96 2 1 1 19d 1 1 1",
   "14ace 1 1 1 14a50 1 1 1 14a88 2 1 1 1a1 1 1 1 1a5 1 1 1 14a88 1 1 1 53ee 1 1 1 14a82 3 1 1",
   "1a5 2 1 1 53fa 1 1 1 1a9 3 1 1 1ab 8 1 1 53ce 3 1 1 1b3 2 1 1 14a86 1 1 1 1b3 4 1 1 14a54 1",
   "1 1 1b3 1 1 1 89 1 2 1 1b1 2 1 1 8d 6 1 1 1b5 b 1 1 14a2a 1 1 1 14a24 a7 1 1 a8 2c 2 2 1 6 1",
   "1 1 4 3 1 104 31 1 1 4b 1 3 1 49 4 11 1 3f 11 1 1 3d 1 9 1 3f 9 1 1 7f 1 2 1 7d 3 1 1 7b 1 1",
   "1 71 4 1 1 5d 1 1 1 6b 1 1 1 f 2 c 2 1 17 1 1 ab 1 1 1 9f 1 1 1 e 1 1 1 e7 2 1 1 bf 3 1 1 1",
   "3 1 1 1 35 20 1 3f 20 10 1 9f 11 11 2 1 2a 1b 2 1 37 7 2 1 d 1 1 1d 2 30 2 1 90 26 1 5f b6f",
   "2b 1 1780 2d 3 1 1780 2fb 6 1 f 888 1 1 30db 1 1 1 30d9 1 1 1 30c7 1 2 1 30c3 2 1 1 30c5 1 1",
   "1 30b7 1 1 1 3049 1 1 1 11384 2 1 1 1 ef 1 1 11408 4 1 1 1dcc 11 1 1 11470 73 4b 2 1 9a 1 1",
   "75 6 30 2 1 5f 8 1 10 10 6 1 10 10 8 1 10 10 8 1 10 10 6 1 10 11 4 2 10 f 8 1 10 10 2 1 94 2",
   "4 1 ac 4 2 1 c8 2 2 1 100 2 2 1 e0 2 2 1 fc 34 2 1 10 e 1 1 3849 12 2 1 10 10 2 1 10 5 1 1 e",
   "169 1 1 37 22 10 1 1f 14 1 1 1 34c 1a 1 33 760 30 1 5f 31 1 1 1 4 1 1 5455 1 1 1 544f 2 3 2",
   "1 b 1 1 1 3 1 1 1 b 32 2 1 6b 2 2 1 7 1 1 1 d 26 1 38bf 27 1 1 38bf 6 1 1 38bf 7914 17 2 1",
   "40 e 2 1 a2 7 2 1 10 1f 2 1 47 2 2 1 5 5 2 1 d 1 1 1 5 2 2 1 3 1 1 60 3 a 2 1 1e 8 2 1 13 2",
   "2 1 5 8 2 1 29 1 1 1 35d 1 1 73f 1d 50 1 12f9f 53d1 1a 1 3f 4e7 28 1 4f b0 24 1 4f bf b 1 4d",
   "c f 1 4d 10 7 1 4d 8 2 1 4d 705 33 1 7f b0 16 1 3f b50 20 1 3f 55a0 20 1 3f 5b 19 1 35 7a67",
   "22 1 43"]

/-- The characters with one character as their lower case. -/
def lowerRuns : List CaseRun := CaseRun.decode
  ["c0 17 1 40 18 7 1 40 28 18 2 2 32 3 2 2 7 8 2 2 11 17 2 2 2e 1 1 f1 1 3 2 2 8 1 1 1a4 1 2 2",
   "2 4 1 1 19c 1 1 1 2 2 2 1 19a 2 1 1 2 3 1 1 9e 1 1 1 194 1 1 1 196 1 1 1 2 2 1 1 19a 1 1 1",
   "19e 2 1 1 1a6 1 1 1 1a2 1 1 1 2 4 1 1 1a6 1 1 1 1aa 2 1 1 1ac 1 3 2 2 6 1 1 1b4 1 1 1 2 2 1",
   "1 1b4 3 1 1 2 2 1 1 1b4 1 1 1 2 2 2 1 1b2 2 2 2 2 4 1 1 1b6 1 1 1 2 4 1 1 2 8 1 1 4 1 1 1 2",
   "2 1 1 4 1 1 1 2 2 1 1 4 1 9 2 2 13 9 2 2 13 1 1 4 1 2 2 2 4 1 1 c1 1 1 1 6f 1 14 2 2 28 1 1",
   "103 2 9 2 2 18 1 1 5456 1 1 1 2 2 1 1 145 1 1 1 5450 3 1 1 2 2 1 1 185 1 1 1 8a 1 1 1 8e 1 5",
   "2 2 12a 2 2 2 6 1 1 2 9 1 1 e8 7 1 1 4c 2 3 1 4a 4 1 1 80 2 2 1 7e 3 11 1 40 12 9 1 40 2c 1",
   "1 10 9 c 2 2 1c 1 1 77 3 1 1 2 2 1 1 d 1 1 1 2 3 3 1 103 3 10 1 a0 10 20 1 40 50 11 2 2 2a",
   "1b 2 2 36 1 1 1e 1 7 2 2 f 30 2 2 61 26 1 60 b6f 26 1 38c0 27 1 1 38c0 6 1 1 38c0 2d3 50 1",
   "12fa0 50 6 1 10 899 1 1 2 7 2b 1 177f 2d 3 1 177f 143 4b 2 2 9e 1 1 3b7d 2 30 2 2 68 8 1 f",
   "10 6 1 f 10 8 1 f 10 8 1 f 10 6 1 f 11 4 2 f f 8 1 f 20 8 1 f 10 8 1 f 10 8 1 f 10 2 1 f 2 2",
   "1 93 2 1 1 11 c 4 1 ab 4 1 1 11 c 2 1 f 2 2 1 c7 e 2 1 f 2 2 1 df 2 1 1 d c 2 1 ff 2 2 1 fb",
   "2 1 1 11 12a 1 1 3ab9 4 1 1 417d 1 1 1 408b 7 1 1 38 2e 10 1 20 23 1 1 2 333 1a 1 34 74a 30",
   "1 60 60 1 1 2 2 1 1 53ed 1 1 1 1dcb 1 1 1 53cd 3 3 2 2 6 1 1 5437 1 1 1 53f9 1 1 1 543d 1 1",
   "1 543b 2 1 1 2 3 1 1 2 9 2 1 547d 2 32 2 2 6b 2 2 2 7 1 1 2 794e 17 2 2 40 e 2 2 a2 7 2 2 10",
   "1f 2 2 47 2 2 2 4 1 1 11407 1 5 2 2 d 1 1 2 2 1 1 14a4f 3 2 2 2 6 a 2 2 14 1 1 14a87 1 1 1",
   "14a9d 1 1 1 14a95 1 1 1 14a81 1 1 1 14a87 2 1 1 14a23 1 1 1 14a53 1 1 1 14a29 1 1 1 740 1 8",
   "2 2 10 1 1 5f 1 1 1 14a85 1 1 1 1146f 1 2 2 2 4 1 1 14acd 1 8 2 2 10 1 1 14c81 19 1 1 2 572c",
   "1a 1 40 4df 28 1 50 b0 24 1 50 c0 b 1 4e c f 1 4e 10 7 1 4e 8 2 1 4e 6ec 33 1 80 d0 16 1 40",
   "b50 20 1 40 55a0 20 1 40 60 19 1 36 7a60 22 1 44"]

/-- Entries of a code point, a count and so many code points. -/
def entriesOf : Nat → List Nat → List (Nat × List Char)
  | 0, _ => []
  | fuel + 1, n :: count :: rest =>
    (n, (rest.take count).map Char.ofNat) :: entriesOf fuel (rest.drop count)
  | _, _ => []

/-- The characters with several characters as their upper case. -/
def upperEntries : List (Nat × List Char) :=
  let numbers := upperNumbers.flatMap fun p => Ranges.numbers p.toList 0 false
  entriesOf numbers.length numbers
where
  /-- The entries in compact form. -/
  upperNumbers : List String :=
    ["df 2 53 53 149 2 2bc 4e 1f0 2 4a 30c 390 3 399 308 301 3b0 3 3a5 308 301 587 2 535 552",
     "1e96 2 48 331 1e97 2 54 308 1e98 2 57 30a 1e99 2 59 30a 1e9a 2 41 2be 1f50 2 3a5 313 1f52",
     "3 3a5 313 300 1f54 3 3a5 313 301 1f56 3 3a5 313 342 1f80 2 1f08 399 1f81 2 1f09 399 1f82 2",
     "1f0a 399 1f83 2 1f0b 399 1f84 2 1f0c 399 1f85 2 1f0d 399 1f86 2 1f0e 399 1f87 2 1f0f 399",
     "1f88 2 1f08 399 1f89 2 1f09 399 1f8a 2 1f0a 399 1f8b 2 1f0b 399 1f8c 2 1f0c 399 1f8d 2",
     "1f0d 399 1f8e 2 1f0e 399 1f8f 2 1f0f 399 1f90 2 1f28 399 1f91 2 1f29 399 1f92 2 1f2a 399",
     "1f93 2 1f2b 399 1f94 2 1f2c 399 1f95 2 1f2d 399 1f96 2 1f2e 399 1f97 2 1f2f 399 1f98 2",
     "1f28 399 1f99 2 1f29 399 1f9a 2 1f2a 399 1f9b 2 1f2b 399 1f9c 2 1f2c 399 1f9d 2 1f2d 399",
     "1f9e 2 1f2e 399 1f9f 2 1f2f 399 1fa0 2 1f68 399 1fa1 2 1f69 399 1fa2 2 1f6a 399 1fa3 2",
     "1f6b 399 1fa4 2 1f6c 399 1fa5 2 1f6d 399 1fa6 2 1f6e 399 1fa7 2 1f6f 399 1fa8 2 1f68 399",
     "1fa9 2 1f69 399 1faa 2 1f6a 399 1fab 2 1f6b 399 1fac 2 1f6c 399 1fad 2 1f6d 399 1fae 2",
     "1f6e 399 1faf 2 1f6f 399 1fb2 2 1fba 399 1fb3 2 391 399 1fb4 2 386 399 1fb6 2 391 342 1fb7",
     "3 391 342 399 1fbc 2 391 399 1fc2 2 1fca 399 1fc3 2 397 399 1fc4 2 389 399 1fc6 2 397 342",
     "1fc7 3 397 342 399 1fcc 2 397 399 1fd2 3 399 308 300 1fd3 3 399 308 301 1fd6 2 399 342",
     "1fd7 3 399 308 342 1fe2 3 3a5 308 300 1fe3 3 3a5 308 301 1fe4 2 3a1 313 1fe6 2 3a5 342",
     "1fe7 3 3a5 308 342 1ff2 2 1ffa 399 1ff3 2 3a9 399 1ff4 2 38f 399 1ff6 2 3a9 342 1ff7 3 3a9",
     "342 399 1ffc 2 3a9 399 fb00 2 46 46 fb01 2 46 49 fb02 2 46 4c fb03 3 46 46 49 fb04 3 46 46",
     "4c fb05 2 53 54 fb06 2 53 54 fb13 2 544 546 fb14 2 544 535 fb15 2 544 53b fb16 2 54e 546",
     "fb17 2 544 53d"]

/-- The characters that have a case. -/
def cased : Ranges := .decode
  ["41 1a 6 1a 2f 1 a 1 4 1 5 17 1 1f 1 c3 1 4 4 d0 2 23 7 2 1e 5 60 1 2a 4 2 2 2 4 1 1 6 1 1 3",
   "1 1 1 14 1 53 1 8b 8 a6 1 26 9 29 b17 26 1 1 5 1 2 2b 1 4 2a0 56 2 6 882 b 5 2b 2 3 40 c0 40",
   "116 2 6 2 26 2 6 2 8 1 1 1 1 1 1 1 1f 2 35 1 7 1 1 3 3 1 7 3 4 2 6 4 d 5 3 1 7 74 1 d 1 10 d",
   "65 1 4 1 2 a 1 1 3 5 6 1 1 1 1 1 1 4 1 6 4 1 2 4 5 5 4 1 11 20 3 2 331 34 716 e5 6 4 3 2 c",
   "26 1 1 5 1 7912 2e 12 1e 84 66 3 4 1 4d 14 6 1 3 335 2b 1 e 6 50 4f40 7 c 5 409 1a 6 1a 4a5",
   "50 60 24 4 24 74 b 1 f 1 7 1 2 1 b 1 f 1 7 1 2 1c3 1 2 3 1 2a 1 9 4c5 33 d 33 5d 16 a 16 b1a",
   "40 5560 40 20 19 2 19 652c 55 1 47 1 2 2 1 2 2 2 4 1 c 1 1 1 7 1 41 1 4 2 8 1 7 1 1c 1 4 1 5",
   "1 1 3 7 1 154 2 19 1 19 1 1f 1 19 1 1f 1 19 1 1f 1 19 1 1f 1 19 1 8 734 a 1 14 6 6 105 3e",
   "892 44 7ec 1a 6 1a 6 1a"]

/-- The characters that the search for a neighbour with a case passes over. -/
def ignorable : Ranges := .decode
  ["27 1 6 1 b 1 23 1 1 1 47 1 4 1 1 1 4 1 2 2 1f7 c0 4 2 4 1 9 2 1 1 fb 7 cf 1 5 1 31 2d 1 1 1",
   "2 1 2 1 1 2c 1 b 6 a b 1 1 23 1 a 15 10 1 65 8 1 a 1 4 21 1 1 1 1e 1b 5b b 3a b 4 1 2 1 18",
   "18 2b 3 2c 1 7 2 5 9 29 3a 37 1 1 1 4 8 4 1 3 7 a 2 d 1 f 1 3a 1 4 4 8 1 14 2 1a 1 2 2 39 1",
   "4 2 4 2 2 3 3 1 1e 2 3 1 b 2 39 1 4 5 1 2 4 1 14 2 16 6 1 1 3a 1 2 1 1 4 8 1 7 2 b 2 1e 1 3d",
   "1 c 1 32 1 3 1 37 1 1 3 5 3 1 4 7 2 b 2 1d 1 3a 1 2 1 6 1 5 2 14 2 1c 2 39 2 4 4 8 1 14 2 1d",
   "1 48 1 7 3 1 1 5a 1 2 7 b 9 62 1 2 9 9 1 1 7 49 2 1b 1 1 1 1 1 37 e 1 5 1 2 5 b 1 24 9 1 66",
   "4 1 6 1 2 2 2 19 2 4 3 10 4 d 1 2 2 6 1 f 1 5e 1 260 3 3b2 3 1d 2 1e 2 1e 2 40 2 1 7 8 1 2 b",
   "3 1 5 1 2d 5 33 1 41 2 22 1 76 3 4 2 9 1 6 3 db 2 2 1 3a 1 1 7 1 1 1 1 2 8 6 a 2 1 27 1 8 2e",
   "2 c 14 4 30 1 1 5 1 1 5 1 28 9 c 2 20 4 2 2 1 3 38 1 1 2 3 1 1 3 3a 8 2 2 40 6 52 3 1 d 1 7",
   "4 1 6 1 3 2 32 3f d 1 22 65 1bd 1 1 3 b 3 d 3 d 3 d 2 c 5 8 2 a 1 2 1 2 5 31 5 1 a 1 1 d 1",
   "10 d 33 21 b8b 2 71 3 7d 1 f 1 60 20 2f 1 1d5 1 24 4 3 5 5 1 5d 6 5d 3 6f16 1 4e2 6 10e 1 62",
   "4 1 a 1 1 1c 4 50 2 e 22 4e 1 17 3 66 4 3 2 8 1 3 1 4 1 19 2 5 1 97 2 1a 12 d 1 26 8 19 b 2e",
   "3 30 1 2 4 2 2 11 1 15 2 42 6 2 2 2 2 c 1 8 1 23 1 b 1 33 1 1 3 2 2 5 2 1 1 1b 1 e 2 5 2 1 1",
   "64 5 9 3 79 1 2 1 4 1 4f30 1 93 11 23d 10 3 1 c 10 22 1 2 1 a9 1 7 1 6 1 b 1 23 1 1 1 2f 1",
   "2d 2 43 1 15 3 201 1 e2 1 95 5 405 6 1 2a 1 9 246 3 1 2 5 4 28 3 4 1 a5 2 23d 4 26 1 1a 5 1",
   "1 13b 2 18 1 34 6 46 b 31 4 7b 1 36 f 29 1 2 2 a 3 31 4 2 2 2 1 4 1 a 1 32 3 24 5 1 8 3e 1 c",
   "2 34 9 a 4 2 1 5f 3 2 1 1 2 6 1 2 1 9d 1 3 8 15 2 39 2 3 1 25 7 3 5 46 6 d 1 1 1 1 1 e 2 55",
   "8 2 3 1 1 17 1 54 6 1 1 4 2 1 2 ee 4 6 2 1 2 1b 2 55 8 2 1 1 2 6a 1 1 1 2 6 1 1 65 1 1 1 2 4",
   "1 5 103 9 1 2 100 2 1 1 4 1 90 4 2 2 4 1 20 a 28 6 2 4 8 1 9 6 2 3 2e d 1 2 c6 1 1 3 1 1 c9",
   "7 1 6 1 1 52 16 2 7 1 2 1 2 7a 6 3 1 1 2 1 7 1 1 48 2 3 1 1 1 41 1 119 2 b 2 34 5 5 1 1 1 17",
   "1 14d5 11 6 f 2cc8 c 3 3 9c0 5 3b 7 9 4 1fc 3 28 2 1e2 1 3f 11 40 2 1 2 d 2 3ffc 4 1 7 1 2",
   "c9e 2 1 4 125c 2e 2 17 220 3 9 10 2 7 1e 4 94 3 7bb 37 4 32 8 1 e 1 16 5 1 f 550 7 1 11 2 7",
   "1 2 1 5 5 3e 21 1 a0 e 170 1 3d 4 1fb 5 fe 2 f3 1 2 1 7 2 5 1 9 1 1d0 7 6d 8 aaf 5 c0c01 1",
   "1e 60 80 f0"]

/-- The image of a character under runs; a character that has none stays. -/
def viaRuns (runs : List CaseRun) (c : Char) : Char :=
  match runs.findSome? (·.image? c.toNat) with
  | some n => Char.ofNat n
  | none => c

/-- The upper case of a character. -/
def upperOf (c : Char) : List Char :=
  if c.toNat < 128 then [c.toUpper]
  else
    match upperEntries.find? (·.1 == c.toNat) with
    | some e => e.2
    | none => [viaRuns upperRuns c]

/-- The lower case of a character by itself. -/
def lowerOf (c : Char) : List Char :=
  if c.toNat < 128 then [c.toLower]
  else if c = '\u0130' then ['i', '\u0307']
  else [viaRuns lowerRuns c]

/-- Whether the nearest character that is not passed over has a case. -/
def meetsCased (cs : List Char) : Bool :=
  match cs.dropWhile (ignorable.contains ·.toNat) with
  | c :: _ => cased.contains c.toNat
  | [] => false

/-- Whether a place ends a word: `before` is the text before it from its last character, and `after`
the text after it. -/
def endsWord (before after : List Char) : Bool := meetsCased before && !meetsCased after

/-- The lower case of a text after the text `before`, which is given from its last character. -/
def lowerFrom (before : List Char) : List Char → List Char
  | [] => []
  | c :: cs =>
    let image := if c = 'Σ' then [if endsWord before cs then 'ς' else 'σ'] else lowerOf c
    image ++ lowerFrom (c :: before) cs

/-- A text in lower case. -/
def lower (s : String) : String := String.ofList (lowerFrom [] s.toList)

/-- A text in upper case. -/
def upper (s : String) : String := String.ofList (s.toList.flatMap upperOf)

/-- Characters with the first one in upper case. -/
def capitalizeChars : List Char → List Char
  | [] => []
  | c :: cs => upperOf c ++ cs

/-- A text with its first character in upper case. -/
def capitalize (s : String) : String := String.ofList (capitalizeChars s.toList)

/-- A text in lower case, with the first character of every word between spaces in upper case. -/
def title (s : String) : String :=
  String.ofList
    (List.intercalate [' '] ((Pieces.split ' ' (lowerFrom [] s.toList)).map capitalizeChars))

end Case

end ScriptLang
