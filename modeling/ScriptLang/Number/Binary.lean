/-!
# Double-precision numbers as exact quantities

A `Float` read as what it stands for, and exact quantities rounded to the nearest `Float`.

* `Binary.classify` splits a number into not-a-number, an infinity, or a signed `m * 2 ^ q`.
* `Binary.ofRatio` is the number nearest to a quotient of naturals, a tie going to the even
  mantissa; beyond the largest number it is an infinity.
* `Binary.truncate` drops the part after the point; `Binary.toInt?` is the exact integer value.
* `Binary.remainder` is the remainder of the truncated division, which is always exact.
-/

namespace ScriptLang.Binary

/-- What a number stands for. -/
inductive Class where
  /-- No number. -/
  | nan
  /-- An infinity. -/
  | infinite (negative : Bool)
  /-- The quantity `mantissa * 2 ^ exponent`, with its sign. -/
  | finite (negative : Bool) (mantissa : Nat) (exponent : Int)
  deriving DecidableEq, Repr, Inhabited

/-- The quantity that a bit pattern stands for. -/
def Class.ofBits (bits : UInt64) : Class :=
  let n : Nat := bits.toNat
  let negative := n / Nat.pow 2 63 == 1
  let biased : Nat := n / Nat.pow 2 52 % Nat.pow 2 11
  let fraction : Nat := n % Nat.pow 2 52
  if biased == 2047 then
    if fraction == 0 then .infinite negative else .nan
  else if biased == 0 then .finite negative fraction (-1074)
  else .finite negative (fraction + Nat.pow 2 52) ((biased : Int) - 1075)

/-- What a number stands for. -/
def classify (x : Float) : Class := Class.ofBits x.toBits

/-- Whether a number is neither an infinity nor not-a-number. -/
def isFinite (x : Float) : Bool :=
  match classify x with
  | .finite .. => true
  | _ => false

/-- The quotient `num / den` rounded to a natural number, a tie going to the even neighbour. -/
def roundHalfEven (num den : Nat) : Nat :=
  let q := num / den
  let r := num % den
  if 2 * r < den then q
  else if den < 2 * r then q + 1
  else if q % 2 == 0 then q else q + 1

/-- The quotient `num / den * 2 ^ (-e)` as a pair of naturals. -/
def scale (num den : Nat) (e : Int) : Nat × Nat :=
  if 0 ≤ e then (num, den * Nat.pow 2 e.toNat) else (num * Nat.pow 2 (-e).toNat, den)

/-- The exponent `e` for which `num / den` lies between `2 ^ (e + 52)` and `2 ^ (e + 53)`. -/
def binaryExponent (num den : Nat) : Int :=
  let e : Int := (Nat.log2 num : Int) - Nat.log2 den - 52
  let (n, d) := scale num den e
  if n < d * Nat.pow 2 52 then e - 1 else e

/-- The mantissa nearest to `num / den * 2 ^ (-q)`. -/
def mantissaAt (num den : Nat) (q : Int) : Nat :=
  let r := scale num den q
  roundHalfEven r.1 r.2

/-- The bit pattern of `m * 2 ^ q`. A mantissa that was rounded up to 54 bits is carried into the
exponent, and what is too large is an infinity. -/
def encode (m : Nat) (q : Int) : Nat :=
  let (m, q) := if m == Nat.pow 2 53 then (Nat.pow 2 52, q + 1) else (m, q)
  if 971 < q then 2047 * Nat.pow 2 52
  else if m < Nat.pow 2 52 then m
  else (q + 1075).toNat * Nat.pow 2 52 + (m - Nat.pow 2 52)

/-- The bit pattern of the number nearest to `num / den`, which must be positive. -/
def positiveBits (num den : Nat) : Nat :=
  let q := max (binaryExponent num den) (-1074)
  encode (mantissaAt num den q) q

/-- The number nearest to `num / den`, negated on demand. -/
def ofRatio (negative : Bool) (num den : Nat) : Float :=
  let magnitude := if num == 0 || den == 0 then 0 else positiveBits num den
  Float.ofBits (UInt64.ofNat (magnitude + if negative then Nat.pow 2 63 else 0))

/-- The number nearest to an integer. -/
def ofInt (i : Int) : Float := ofRatio (i < 0) i.natAbs 1

/-- The number nearest to a natural number. -/
def ofNat (n : Nat) : Float := ofRatio false n 1

/-- The integer part of `mantissa * 2 ^ exponent`. -/
def wholePart (mantissa : Nat) (exponent : Int) : Nat :=
  if 0 ≤ exponent then mantissa * Nat.pow 2 exponent.toNat
  else mantissa / Nat.pow 2 (-exponent).toNat

/-- The number without the part after the point; infinities and not-a-number have none. -/
def wholeInt? (x : Float) : Option Int :=
  match classify x with
  | .finite negative m q =>
    let n : Int := wholePart m q
    some (if negative then -n else n)
  | _ => none

/-- Whether `mantissa * 2 ^ exponent` is an integer. -/
def isWhole (mantissa : Nat) (exponent : Int) : Bool :=
  0 ≤ exponent || mantissa % Nat.pow 2 (-exponent).toNat == 0

/-- The exact integer value, if there is one. -/
def toInt? (x : Float) : Option Int :=
  match classify x with
  | .finite negative m q =>
    if isWhole m q then
      let n : Int := wholePart m q
      some (if negative then -n else n)
    else none
  | _ => none

/-- The part before the point, toward zero. -/
def truncate (x : Float) : Float := if x < 0 then x.ceil else x.floor

/-- The largest power of two that divides a positive number is taken out of it. -/
def stripTwos : Nat → Nat → Int → Nat × Int
  | 0, m, q => (m, q)
  | fuel + 1, m, q => if m % 2 == 0 && m != 0 then stripTwos fuel (m / 2) (q + 1) else (m, q)

/-- `m * 2 ^ q` as a number; it is exact whenever a number has that value. -/
def ofScaled (negative : Bool) (m : Nat) (q : Int) : Float :=
  let (n, d) := scale m 1 (-q)
  ofRatio negative n d

/-- The remainder of the truncated division: it has the sign of the first number and is smaller in
magnitude than the second. -/
def remainder (x y : Float) : Float :=
  match classify x, classify y with
  | .finite neg m q, .finite _ m' q' =>
    if m' == 0 then 0.0 / 0.0
    else
      let low := min q q'
      let a := m * Nat.pow 2 (q - low).toNat
      let b := m' * Nat.pow 2 (q' - low).toNat
      ofScaled neg (a % b) low
  | .finite .., .infinite _ => x
  | _, _ => 0.0 / 0.0

/-- An integer clamped to the range of 64-bit signed integers. -/
def clampInt64 (i : Int) : Int := max (-(Nat.pow 2 63 : Int)) (min i (Nat.pow 2 63 - 1))

/-- A number cut to a range of integers, after dropping the part after the point. Not-a-number is
zero, and an infinity the nearer end. -/
def cutTo (low high : Int) (x : Float) : Int :=
  match classify x with
  | .nan => 0
  | .infinite negative => if negative then low else high
  | .finite negative m q =>
    let n : Int := wholePart m q
    max low (min high (if negative then -n else n))

/-- A number as a 64-bit signed integer, cut to their range. -/
def cutToInt64 (x : Float) : Int := cutTo (-(Nat.pow 2 63 : Int)) (Nat.pow 2 63 - 1) x

/-- A number as a count: cut to the natural numbers of 64 bits. -/
def cutToCount (x : Float) : Nat := (cutTo 0 (Nat.pow 2 64 - 1) x).toNat

end ScriptLang.Binary
