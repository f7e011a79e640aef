import ScriptLang.Number.Binary

/-!
# Decimal texts of numbers

Numbers are written with the fewest digits that read back as the same number.

* `Decimal.shortest` chooses the digits: on the coarsest decimal grid that has a point in the
  interval of reals rounding to the number, it takes the point nearest to the number. Of two equally
  near points a `Tie` decides.
* A `Layout` decides how digits and exponent are laid out: which magnitudes are written
  positionally, whether `.0` is kept, how an exponent is marked, and the texts of the special
  values. `Layout.write` follows it.
* `Layout.display` is how programs print numbers, `Layout.plain` never uses an exponent,
  `Layout.tree` is for dumps of syntax trees, `Layout.json` for JSON.
* `Decimal.read?` reads a decimal text and rounds it correctly.
-/

namespace ScriptLang

/-- The quantity `digits * 10 ^ exponent`; `digits` does not end in a zero unless it is zero. -/
structure Decimal where
  /-- The significant digits. -/
  digits : Nat
  /-- The power of ten. -/
  exponent : Int
  deriving DecidableEq, Repr, Inhabited

namespace Decimal

/-- Takes the zeros at the end out of the digits. -/
def strip : Nat → Nat → Int → Decimal
  | 0, d, e => ⟨d, e⟩
  | fuel + 1, d, e => if d % 10 == 0 && d != 0 then strip fuel (d / 10) (e + 1) else ⟨d, e⟩

/-- `num / den / 10 ^ s` as a pair of naturals. -/
def scaleTen (num den : Nat) (s : Int) : Nat × Nat :=
  if 0 ≤ s then (num, den * Nat.pow 10 s.toNat) else (num * Nat.pow 10 (-s).toNat, den)

/-- The least `k ≥ guess` with `num / den < 10 ^ k`, looked for in `fuel` steps. -/
def decimalExponent : Nat → Nat → Nat → Int → Int
  | 0, _, _, guess => guess
  | fuel + 1, num, den, guess =>
    let (n, d) := scaleTen num den guess
    if n < d then guess else decimalExponent fuel num den (guess + 1)

/-- The reals that round to a number, over a common denominator: ends `low` and `high`, the number
itself, and whether the ends belong to them. -/
structure Interval where
  low : Nat
  value : Nat
  high : Nat
  den : Nat
  closed : Bool
  deriving Repr, Inhabited

/-- The reals that round to `m * 2 ^ q`. Just above a power of two the lower neighbour is nearer. -/
def Interval.around (m : Nat) (q : Int) : Interval :=
  let low := if m == Nat.pow 2 52 && -1074 < q then 4 * m - 1 else 4 * m - 2
  let (up, den) := if 2 ≤ q then (Nat.pow 2 (q - 2).toNat, 1) else (1, Nat.pow 2 (2 - q).toNat)
  ⟨low * up, 4 * m * up, (4 * m + 2) * up, den, m % 2 == 0⟩

/-- Whether `d * 10 ^ s` rounds to the number. -/
def Interval.covers (i : Interval) (d : Nat) (s : Int) : Bool :=
  let (x, den) := if 0 ≤ s then (d * Nat.pow 10 s.toNat * i.den, 1)
    else (d * i.den, Nat.pow 10 (-s).toNat)
  if i.closed then i.low * den ≤ x && x ≤ i.high * den
  else i.low * den < x && x < i.high * den

/-- Which of two equally near points of a grid is taken. -/
inductive Tie where
  /-- The one of the larger magnitude. -/
  | up
  /-- The one whose last digit is even. -/
  | even
  deriving DecidableEq, Repr

/-- Whether the upper one of two equally near points is taken, given the digits of the lower one. -/
def Tie.takesUpper (tie : Tie) (lower : Nat) : Bool :=
  match tie with
  | .up => true
  | .even => lower % 2 == 1

/-- The nearer one of the points `lower` and `lower + 1`, for a number that lies `rest / unit` above
`lower`. -/
def nearer (tie : Tie) (lower rest unit : Nat) : Nat :=
  if 2 * rest < unit then lower
  else if unit < 2 * rest then lower + 1
  else if tie.takesUpper lower then lower + 1 else lower

/-- The first grid, from `10 ^ s` down, with a point in the interval, and the nearest such point. -/
def search (tie : Tie) (i : Interval) : Nat → Int → Decimal
  | 0, s =>
    let (n, d) := scaleTen i.value i.den s
    ⟨n / d, s⟩
  | fuel + 1, s =>
    let (n, d) := scaleTen i.value i.den s
    let lower := n / d
    let upper := lower + 1
    match i.covers lower s, i.covers upper s with
    | true, true => ⟨nearer tie lower (n % d) d, s⟩
    | true, false => ⟨lower, s⟩
    | false, true => ⟨upper, s⟩
    | false, false => search tie i fuel (s - 1)

/-- The fewest digits that read back as `m * 2 ^ q`, which must be positive. -/
def shortest (tie : Tie) (m : Nat) (q : Int) : Decimal :=
  let i := Interval.around m q
  let guess : Int := ((Nat.log2 m : Int) + q) * 30103 / 100000 - 1
  let k := decimalExponent 6 i.value i.den guess
  let found := search tie i 20 (k - 1)
  strip 400 found.digits found.exponent

/-- The number nearest to `digits * 10 ^ exponent`. Exponents far outside the range of numbers are
cut short. -/
def toFloat (negative : Bool) (digits : Nat) (exponent : Int) : Float :=
  let size : Int := (Nat.log2 digits : Int) * 30103 / 100000 + exponent
  if digits == 0 then Binary.ofRatio negative 0 1
  else if 320 < size then Binary.ofRatio negative (Nat.pow 10 320) 1
  else if size < -360 then Binary.ofRatio negative 0 1
  else
    let (n, d) := scaleTen digits 1 (-exponent)
    Binary.ofRatio negative n d

/-! ### Reading -/

/-- The value of a run of decimal digits, added to the digits `n` read before. -/
def natOfDigits (n : Nat) (cs : List Char) : Nat :=
  cs.foldl (fun n c => 10 * n + (c.toNat - '0'.toNat)) n

/-- The value of an exponent's digits; beyond six digits only the magnitude matters. -/
def exponentOfDigits (cs : List Char) : Nat :=
  let cs := cs.dropWhile (· == '0')
  if 6 < cs.length then 1000000 else natOfDigits 0 cs

/-- The exponent mark and what follows it: none at all, or a whole exponent. -/
def readExponent? (cs : List Char) : Option Int :=
  match cs with
  | [] => some 0
  | c :: cs =>
    if c == 'e' || c == 'E' then
      let (negative, cs) := match cs with
        | '-' :: cs => (true, cs)
        | '+' :: cs => (false, cs)
        | cs => (false, cs)
      if cs.isEmpty || !cs.all Char.isDigit then none
      else
        let n : Int := exponentOfDigits cs
        some (if negative then -n else n)
    else none

/-- An unsigned decimal text: digits with an optional point among them, at least one digit, and an
optional exponent. -/
def readUnsigned? (negative : Bool) (cs : List Char) : Option Float :=
  let whole := cs.takeWhile Char.isDigit
  let rest := cs.dropWhile Char.isDigit
  let (fraction, rest) := match rest with
    | '.' :: rest => (rest.takeWhile Char.isDigit, rest.dropWhile Char.isDigit)
    | rest => ([], rest)
  if whole.isEmpty && fraction.isEmpty then none
  else
    match readExponent? rest with
    | none => none
    | some e =>
      some (toFloat negative (natOfDigits (natOfDigits 0 whole) fraction)
        (e - fraction.length))

/-- The number that a text stands for: an optional sign, then a decimal or the name of an infinity
or of not-a-number in any case. -/
def read? (s : String) : Option Float :=
  let (negative, cs) := match s.toList with
    | '-' :: cs => (true, cs)
    | '+' :: cs => (false, cs)
    | cs => (false, cs)
  match (cs.map Char.toLower : List Char) with
  | ['i', 'n', 'f'] | ['i', 'n', 'f', 'i', 'n', 'i', 't', 'y'] =>
    some (if negative then -1.0 / 0.0 else 1.0 / 0.0)
  | ['n', 'a', 'n'] => some (0.0 / 0.0)
  | _ => readUnsigned? negative cs

end Decimal

/-! ### Writing -/

/-- How the digits of a number are laid out. The point of a number is at position `p` when it stands
after the first `p` significant digits. -/
structure Layout where
  /-- Which of two equally near texts of the same length is written. -/
  tie : Decimal.Tie
  /-- Whether a number with its point at this position is written without an exponent. -/
  positional : (point : Int) → Bool
  /-- Whether a whole number keeps `.0`. -/
  keepPoint : Bool
  /-- Whether a non-negative exponent carries a plus sign. -/
  plusExponent : Bool
  /-- The text of zero, given its sign. -/
  zero : (negative : Bool) → String
  /-- The text of the positive infinity. -/
  infinity : String
  /-- The text of not-a-number. -/
  notANumber : String

namespace Layout

/-- The digits of a decimal, as characters. -/
def digitChars (d : Decimal) : List Char := Nat.toDigits 10 d.digits

/-- Digits with a point and no exponent. -/
def writePositional (keepPoint : Bool) (cs : List Char) (point : Int) : String :=
  if point ≤ 0 then
    String.ofList ('0' :: '.' :: (List.replicate (-point).toNat '0' ++ cs))
  else
    let p := point.toNat
    if cs.length ≤ p then
      String.ofList (cs ++ List.replicate (p - cs.length) '0')
        ++ if keepPoint then ".0" else ""
    else String.ofList (cs.take p ++ '.' :: cs.drop p)

/-- Digits with a point after the first one, and an exponent. -/
def writeExponent (plus : Bool) (cs : List Char) (point : Int) : String :=
  let mantissa := match cs with
    | [] => []
    | [c] => [c]
    | c :: cs => c :: '.' :: cs
  let e := point - 1
  let mark := if plus && 0 ≤ e then "e+" else "e"
  String.ofList mantissa ++ mark ++ toString e

/-- The text of a number. -/
def write (l : Layout) (x : Float) : String :=
  match Binary.classify x with
  | .nan => l.notANumber
  | .infinite negative => (if negative then "-" else "") ++ l.infinity
  | .finite negative m q =>
    if m == 0 then l.zero negative
    else
      let d := Decimal.shortest l.tie m q
      let cs := digitChars d
      let point : Int := d.exponent + cs.length
      (if negative then "-" else "") ++
        if l.positional point then writePositional l.keepPoint cs point
        else writeExponent l.plusExponent cs point

/-- How programs print numbers: positionally from `10 ^ -6` up to `10 ^ 21`, whole numbers without a
point, and zero without a sign. -/
def display : Layout where
  tie := .up
  positional p := -5 ≤ p && p ≤ 21
  keepPoint := false
  plusExponent := true
  zero _ := "0"
  infinity := "Infinity"
  notANumber := "NaN"

/-- Numbers without any exponent. -/
def plain : Layout where
  tie := .up
  positional _ := true
  keepPoint := false
  plusExponent := false
  zero negative := if negative then "-0" else "0"
  infinity := "inf"
  notANumber := "NaN"

/-- Numbers in dumps of syntax trees: positionally from `10 ^ -4` up to `10 ^ 16`, and whole numbers
keep `.0`. -/
def tree : Layout where
  tie := .up
  positional p := -3 ≤ p && p ≤ 16
  keepPoint := true
  plusExponent := false
  zero negative := if negative then "-0.0" else "0.0"
  infinity := "inf"
  notANumber := "NaN"

/-- Numbers in JSON that are no small integers: positionally from `10 ^ -5` up to `10 ^ 16`, and
whole numbers keep `.0`. -/
def json : Layout where
  tie := .even
  positional p := -4 ≤ p && p ≤ 16
  keepPoint := true
  plusExponent := true
  zero negative := if negative then "-0.0" else "0.0"
  infinity := "null"
  notANumber := "null"

end Layout

end ScriptLang
