import Mathlib
import ScriptLang.Number.Binary

/-!
# Whole numbers are exact

A whole number below `2 ^ 53` in magnitude goes through an integer and back without a change.

* `Binary.Class.bits_of_finite` — the bits of a finite number, from its mantissa and exponent.
* `Binary.exists_shift` — if `m * 2 ^ q` is a whole number `n` and the mantissa `m` has its 53 bits,
  then `m` is `n` with some zeros behind it. These zeros are the ones that rounding `n` to a number
  puts there, so the bits come out the same (`Binary.positiveBits_eq`).
* A negative number is the negation of its magnitude: they differ in the first bit
  (`Binary.neg_ofBits`).
* `Binary.signed_ofNat_natAbs` is the main statement. Zero is the one number that does not come back
  as it was, since there are two zeros; they are equal.
* A count of fewer than 54 bits is read off its number as it was (`Binary.cutToCount_ofNat`,
  `Binary.toInt?_ofNat`), and no other count, however large, has a number that is equal to its
  number (`Binary.ofNat_beq_ofNat`).
-/

namespace ScriptLang.Binary

open Float.Model Float.Model.UnpackedFloat

variable {x y : Float} {bits : UInt64} {negative : Bool} {m n k : Nat} {q i : Int}

/-! ### Bits of numbers -/

/-- The bits of a sign. -/
def signBits (negative : Bool) : Nat := if negative then 2 ^ 63 else 0

/-- **Bits of a finite number.** The mantissa has 53 bits, the first of which is left out, or the
exponent is the least one. -/
theorem Class.bits_of_finite (h : Class.ofBits bits = .finite negative m q) :
    (m < 2 ^ 52 ∧ q = -1074 ∧ bits.toNat = signBits negative + m) ∨
      (2 ^ 52 ≤ m ∧ m < 2 ^ 53 ∧
        bits.toNat = signBits negative + (q + 1075).toNat * 2 ^ 52 + (m - 2 ^ 52)) := by
  have hbits := bits.toNat_lt
  unfold Class.ofBits at h
  dsimp only at h
  have hsign : bits.toNat / 2 ^ 63 * 2 ^ 63 = signBits (bits.toNat / Nat.pow 2 63 == 1) := by
    unfold signBits
    norm_num at hbits ⊢
    split <;> omega
  split at h
  · split at h <;> cases h
  · -- The exponent field tells whether the first bit of the mantissa is left out.
    split at h
    · cases h
      left
      norm_num at *
      omega
    · cases h
      right
      norm_num at *
      omega

theorem classify_nan : classify Float.nan = .nan := by decide

theorem ne_nan (hc : classify x = .finite negative m q) : x ≠ Float.nan := by
  rintro rfl
  rw [classify_nan] at hc
  cases hc

/-! ### Rounding what needs none -/

theorem roundHalfEven_one (n : Nat) : roundHalfEven n 1 = n := by
  simp [roundHalfEven, Nat.mod_one]

theorem scale_neg (n k : Nat) : scale n 1 (-(k : Int)) = (n * 2 ^ k, 1) := by
  unfold scale
  by_cases hk : k = 0
  · subst hk
    simp
  · rw [if_neg (by omega)]
    simp

section Shifted

variable (hk : k ≤ 52) (hm : n * 2 ^ k = m) (hlow : 2 ^ 52 ≤ m) (hhigh : m < 2 ^ 53)
include hk hm hlow hhigh

/-- The exponent of a natural number that has a mantissa of 53 bits with some zeros behind it. -/
theorem binaryExponent_eq : binaryExponent n 1 = -(k : Int) := by
  have hn : n ≠ 0 := by
    rintro rfl
    omega
  have hlog : n.log2 = 52 - k := by
    have hsplit : 52 - k + k = 52 := Nat.sub_add_cancel hk
    rw [Nat.log2_eq_iff hn]
    constructor
    · refine Nat.le_of_mul_le_mul_right ?_ (Nat.two_pow_pos k)
      rwa [hm, ← Nat.pow_add, hsplit]
    · refine Nat.lt_of_mul_lt_mul_right (a := 2 ^ k) ?_
      rwa [hm, ← Nat.pow_add, Nat.add_right_comm, hsplit]
  have he : (n.log2 : Int) - (Nat.log2 1 : Nat) - 52 = -(k : Int) := by
    rw [hlog, show Nat.log2 1 = 0 by decide]
    omega
  unfold binaryExponent
  dsimp only
  have henough : ¬ m < 1 * Nat.pow 2 52 := by
    rw [Nat.one_mul]
    exact Nat.not_lt.mpr hlow
  rw [he, scale_neg, hm, if_neg henough]

/-- **No rounding.** The bits of the number nearest to such a natural number. -/
theorem positiveBits_eq : positiveBits n 1 = (1075 - k) * 2 ^ 52 + (m - 2 ^ 52) := by
  have hq : max (binaryExponent n 1) (-1074) = -(k : Int) := by
    rw [binaryExponent_eq hk hm hlow hhigh]
    omega
  have hmantissa : mantissaAt n 1 (-(k : Int)) = m := by
    unfold mantissaAt
    rw [scale_neg, hm]
    exact roundHalfEven_one m
  have hcarry : (m == Nat.pow 2 53) = false := beq_false_of_ne (Nat.ne_of_lt hhigh)
  have hsmall : ¬ m < Nat.pow 2 52 := Nat.not_lt.mpr hlow
  have hplace : (-(k : Int) + 1075).toNat = 1075 - k := by omega
  have hencode : encode m (-(k : Int)) = (1075 - k) * 2 ^ 52 + (m - 2 ^ 52) := by
    unfold encode
    simp only [hcarry, Bool.false_eq_true, if_false]
    rw [if_neg (by omega), if_neg hsmall, hplace, Nat.pow_eq]
  unfold positiveBits
  simp only [hq, hmantissa, hencode]

end Shifted

theorem ofNat_eq_ofBits (hn : n ≠ 0) (hk : positiveBits n 1 = k) :
    ofNat n = Float.ofBits (UInt64.ofNat k) := by
  have hzero : (n == 0 || 1 == 0) = false := by simp [hn]
  unfold ofNat ofRatio
  rw [hk]
  simp only [hzero, Bool.false_eq_true, if_false, Nat.add_zero]

/-! ### Mantissas of whole numbers -/

theorem wholePart_zero (q : Int) : wholePart 0 q = 0 := by
  unfold wholePart
  split <;> simp

theorem isWhole_zero (q : Int) : isWhole 0 q = true := by simp [isWhole]

/-- A mantissa that is too short for its exponent is that of a whole number only if it is zero. -/
theorem eq_zero_of_isWhole (hm : m < 2 ^ 52) (hq : q ≤ -52) (hwhole : isWhole m q = true) :
    m = 0 := by
  have hlt : m < 2 ^ (-q).toNat :=
    Nat.lt_of_lt_of_le hm (Nat.pow_le_pow_right (by decide) (by omega))
  have hneg : ¬ 0 ≤ q := by omega
  unfold isWhole at hwhole
  simpa [hneg, Nat.mod_eq_of_lt hlt] using hwhole

/-- A mantissa of 53 bits is the whole number with zeros behind it. -/
theorem exists_shift (hlow : 2 ^ 52 ≤ m) (hhigh : m < 2 ^ 53) (hwhole : isWhole m q = true)
    (hn : wholePart m q = n) (hsmall : n < 2 ^ 53) :
    ∃ k : Nat, k ≤ 52 ∧ q = -(k : Int) ∧ n * 2 ^ k = m := by
  unfold isWhole at hwhole
  unfold wholePart at hn
  simp only [Nat.pow_eq] at hn hwhole
  by_cases hq : 0 ≤ q
  · rw [if_pos hq] at hn
    -- Another factor of two would make the number too large.
    have hzero : q.toNat = 0 := by
      by_contra h
      have htwo : 2 ^ 1 ≤ 2 ^ q.toNat := Nat.pow_le_pow_right (by decide) (by omega)
      have hdouble := Nat.mul_le_mul_left m htwo
      omega
    rw [hzero, Nat.pow_zero, Nat.mul_one] at hn
    refine ⟨0, Nat.zero_le _, by omega, ?_⟩
    rw [Nat.pow_zero, Nat.mul_one, hn]
  · rw [if_neg hq] at hn
    have hmod : m % 2 ^ (-q).toNat = 0 := by simpa [hq] using hwhole
    have hdvd := Nat.dvd_of_mod_eq_zero hmod
    have hle : 2 ^ (-q).toNat ≤ m := Nat.le_of_dvd (by omega) hdvd
    have hlt := (Nat.pow_lt_pow_iff_right (a := 2) (by decide)).mp (Nat.lt_of_le_of_lt hle hhigh)
    exact ⟨(-q).toNat, by omega, by omega, hn ▸ Nat.div_mul_cancel hdvd⟩

theorem toInt?_eq_some (h : toInt? x = some i) :
    ∃ negative m q, classify x = .finite negative m q ∧ isWhole m q = true ∧
      i = if negative then -(wholePart m q : Int) else wholePart m q := by
  unfold toInt? at h
  split at h
  case h_1 negative m q hc =>
    split at h
    · exact ⟨negative, m, q, hc, ‹_›, (Option.some.inj h).symm⟩
    · cases h
  case h_2 => cases h

/-! ### The sign -/

/-- The digits of packed parts. -/
theorem toNat_packComponents (s : Sign) (e : BitVec 11) (f : BitVec 52) :
    (packComponents Format.binary64 s e f).toNat =
      s.toBitVec.toNat * 2 ^ 63 + (e.toNat * 2 ^ 52 + f.toNat) := by
  have he := e.isLt
  have hf := f.isLt
  unfold packComponents
  rw [BitVec.toNat_append, BitVec.toNat_append, ← Nat.shiftLeft_add_eq_or_of_lt hf,
    ← Nat.shiftLeft_add_eq_or_of_lt he, Nat.shiftLeft_eq, Nat.shiftLeft_eq]
  norm_num
  omega

/-- The parts of a bit pattern with no sign. -/
theorem toBitVec_ofNat (hk : k < 2 ^ 63) : (UInt64.ofNat k).toBitVec =
    packComponents Format.binary64 .positive (BitVec.ofNat 11 (k / 2 ^ 52))
      (BitVec.ofNat 52 k) := by
  refine BitVec.eq_of_toNat_eq ?_
  rw [toNat_packComponents, Sign.toBitVec, BitVec.toNat_zero, Nat.zero_mul, Nat.zero_add,
    UInt64.toNat_toBitVec, UInt64.toNat_ofNat_of_lt' (hk.trans (by decide)), BitVec.toNat_ofNat,
    BitVec.toNat_ofNat]
  norm_num at hk ⊢
  omega

/-- Negation turns the first bit. -/
theorem neg_unpack_packComponents (s : Sign) (e : BitVec 11) (f : BitVec 52) :
    (UnpackedFloat.unpack Format.binary64 (packComponents Format.binary64 s e f)).neg =
      UnpackedFloat.unpack Format.binary64 (packComponents Format.binary64 (-s) e f) := by
  unfold UnpackedFloat.unpack
  simp only [unpackSign_packComponents, unpackExponent_packComponents,
    unpackMantissa_packComponents, Sign.ofBitVec_toBitVec]
  -- The cases of unpacking: infinities and not-a-number, zeros, small numbers, other numbers.
  by_cases he : e = -1#11
  · rw [if_pos he, if_pos he]
    by_cases hf : f = 0#52
    · rw [if_pos hf, if_pos hf]
      rfl
    · rw [if_neg hf, if_neg hf]
      rfl
  · rw [if_neg he, if_neg he]
    by_cases he0 : e = 0#11
    · rw [if_pos he0, if_pos he0]
      by_cases hf : f = 0#52
      · rw [dif_pos hf, dif_pos hf]
        rfl
      · rw [dif_neg hf, dif_neg hf]
        rfl
    · rw [if_neg he0, if_neg he0]
      rfl

/-- Packed parts that are not those of not-a-number come out of packing as they were. -/
theorem pack_unpack_packComponents {s : Sign} {e : BitVec 11} {f : BitVec 52} (he : e ≠ -1#11) :
    UnpackedFloat.pack Format.binary64
      (UnpackedFloat.unpack Format.binary64 (packComponents Format.binary64 s e f)) =
      packComponents Format.binary64 s e f := by
  have hnan : isNaNBits (packComponents Format.binary64 s e f) = false := by
    unfold isNaNBits
    rw [unpackExponent_packComponents, decide_eq_false_iff_not]
    exact fun h => he h.1
  rw [pack_unpack, hnan]
  exact if_neg Bool.false_ne_true

theorem toBits_neg_ofBits {e : BitVec 11} {f : BitVec 52} (he : e ≠ -1#11)
    (hbits : bits.toBitVec = packComponents Format.binary64 .positive e f) :
    (-Float.ofBits bits).toBits.toBitVec = packComponents Format.binary64 .negative e f := by
  change UnpackedFloat.pack Format.binary64 (UnpackedFloat.unpack Format.binary64
    (UnpackedFloat.pack Format.binary64
      (UnpackedFloat.unpack Format.binary64 bits.toBitVec))).neg = _
  rw [hbits, pack_unpack_packComponents he, neg_unpack_packComponents]
  exact pack_unpack_packComponents he

/-- **The sign is the first bit.** -/
theorem neg_ofBits (hk : k < 2047 * 2 ^ 52) (hx : x.toBits.toNat = 2 ^ 63 + k) :
    -Float.ofBits (UInt64.ofNat k) = x := by
  have he : BitVec.ofNat 11 (k / 2 ^ 52) ≠ -1#11 := by
    intro h
    have h' := congrArg BitVec.toNat h
    simp only [BitVec.toNat_ofNat] at h'
    norm_num at hk h'
    omega
  have hk63 : k < 2 ^ 63 := hk.trans (by decide)
  have hparts := congrArg BitVec.toNat (toBitVec_ofNat hk63)
  rw [toNat_packComponents, UInt64.toNat_toBitVec,
    UInt64.toNat_ofNat_of_lt' (hk63.trans (by decide)), Sign.toBitVec, BitVec.toNat_zero,
    Nat.zero_mul, Nat.zero_add] at hparts
  rw [← Float.toBits_inj, ← UInt64.toBitVec_inj, toBits_neg_ofBits he (toBitVec_ofNat hk63)]
  refine BitVec.eq_of_toNat_eq ?_
  rw [toNat_packComponents, UInt64.toNat_toBitVec, hx, ← hparts]
  rfl

/-! ### There and back -/

/-- A number, negated on demand. -/
def signed (negative : Bool) (x : Float) : Float := if negative then -x else x

theorem signed_zero (negative sign : Bool) (hx : x.toBits = UInt64.ofNat (signBits sign))
    (hnegative : negative = false) : (signed negative (ofNat 0) == x) = true := by
  subst hnegative
  rw [← x.ofBits_toBits, hx]
  cases sign <;> decide +kernel

/-- The magnitude of a whole number other than zero has the bits of that number, up to the sign. -/
theorem signed_ofNat (hlow : 2 ^ 52 ≤ m) (hhigh : m < 2 ^ 53) (hk : k ≤ 52) (hm : n * 2 ^ k = m)
    (hx : x.toBits.toNat = signBits negative + (1075 - k) * 2 ^ 52 + (m - 2 ^ 52)) :
    signed negative (ofNat n) = x := by
  have hn : n ≠ 0 := by
    rintro rfl
    omega
  rw [ofNat_eq_ofBits hn (positiveBits_eq hk hm hlow hhigh)]
  cases negative with
  | false =>
    rw [← x.ofBits_toBits, ← UInt64.ofNat_toNat (x := x.toBits), hx]
    simp [signed, signBits]
  | true =>
    rw [signed, if_pos rfl]
    refine neg_ofBits ?_ ?_
    · norm_num at hhigh ⊢
      omega
    · rw [hx, Nat.add_assoc]
      rfl

/-- **Whole numbers are exact.** A number whose value is an integer of fewer than 54 bits is equal
to the number that is made of the magnitude and the sign of that integer. -/
theorem signed_ofNat_natAbs (h : toInt? x = some i) (hi : i.natAbs < 2 ^ 53) :
    (signed (i < 0) (ofNat i.natAbs) == x) = true := by
  obtain ⟨negative, m, q, hc, hwhole, rfl⟩ := toInt?_eq_some h
  have habs : (if negative then -(wholePart m q : Int) else wholePart m q).natAbs =
      wholePart m q := by
    cases negative <;> simp
  rw [habs] at hi ⊢
  rcases Class.bits_of_finite hc with ⟨hm, rfl, hbits⟩ | ⟨hlow, hhigh, hbits⟩
  · -- With the least exponent only zero is whole.
    obtain rfl := eq_zero_of_isWhole hm (by decide) hwhole
    rw [wholePart_zero]
    refine signed_zero _ negative ?_ ?_
    · rw [← UInt64.ofNat_toNat (x := x.toBits), hbits, Nat.add_zero]
    · cases negative <;> rfl
  · -- Otherwise the mantissa is the magnitude with zeros behind it.
    obtain ⟨k, hk, rfl, hm⟩ := exists_shift hlow hhigh hwhole rfl hi
    have hplace : (-(k : Int) + 1075).toNat = 1075 - k := by omega
    have hsign : decide ((if negative then -(wholePart m (-k) : Int) else wholePart m (-k)) < 0) =
        negative := by
      have hpos : wholePart m (-k) ≠ 0 := by
        intro hzero
        rw [hzero, Nat.zero_mul] at hm
        omega
      cases negative with
      | false => simp
      | true => simpa using Nat.pos_of_ne_zero hpos
    rw [hplace] at hbits
    rw [hsign, signed_ofNat hlow hhigh hk hm hbits]
    exact Float.beq_self_iff.mpr (ne_nan hc)

/-! ### Counts -/

/-- The bits up to those of infinity come out of a number as they were. -/
theorem toBits_ofBits (hk : k ≤ 2047 * 2 ^ 52) :
    (Float.ofBits (UInt64.ofNat k)).toBits = UInt64.ofNat k := by
  have hnan : @isNaNBits Format.binary64 (UInt64.ofNat k).toBitVec = false := by
    have hk63 : k < 2 ^ 63 := by
      norm_num at hk ⊢
      omega
    rw [toBitVec_ofNat hk63]
    unfold isNaNBits
    rw [unpackExponent_packComponents, unpackMantissa_packComponents, decide_eq_false_iff_not]
    rintro ⟨he, hf⟩
    have he' := congrArg BitVec.toNat he
    rw [← BitVec.toNat_inj.ne] at hf
    simp only [BitVec.toNat_ofNat] at he' hf
    norm_num at hk he' hf
    omega
  rw [← UInt64.toBitVec_inj]
  change UnpackedFloat.pack Format.binary64 (UnpackedFloat.unpack Format.binary64
    (UInt64.ofNat k).toBitVec) = _
  rw [pack_unpack, hnan]
  exact if_neg Bool.false_ne_true

/-- What a number is read as, from its bits. -/
theorem classify_ofBits {e f : Nat} (he : 0 < e) (he' : e < 2047) (hf : f < 2 ^ 52) :
    classify (Float.ofBits (UInt64.ofNat (e * 2 ^ 52 + f))) =
      .finite false (f + 2 ^ 52) (e - 1075) := by
  have hle : e * 2 ^ 52 + f ≤ 2047 * 2 ^ 52 := by omega
  have hnat : (UInt64.ofNat (e * 2 ^ 52 + f)).toNat = e * 2 ^ 52 + f :=
    UInt64.toNat_ofNat_of_lt' (Nat.lt_of_le_of_lt hle (by decide))
  have hsign : (e * 2 ^ 52 + f) / 2 ^ 63 = 0 := by omega
  have hplace : (e * 2 ^ 52 + f) / 2 ^ 52 % 2 ^ 11 = e := by omega
  have hdigits : (e * 2 ^ 52 + f) % 2 ^ 52 = f := by omega
  have hfirst : (e == 2047) = false := beq_false_of_ne (by omega)
  have hlast : (e == 0) = false := beq_false_of_ne (by omega)
  unfold classify Class.ofBits
  rw [toBits_ofBits hle]
  simp only [Nat.pow_eq, hnat, hsign, hplace, hdigits, hfirst, hlast, Bool.false_eq_true, if_false]
  rfl

theorem cutToCount_of_finite (h : classify x = .finite false m q) :
    cutToCount x = min (2 ^ 64 - 1) (wholePart m q) := by
  unfold cutToCount cutTo
  rw [h]
  simp only [Nat.pow_eq, Bool.false_eq_true, if_false]
  norm_num
  omega

theorem cutToCount_of_negative (h : classify x = .finite true m q) : cutToCount x = 0 := by
  unfold cutToCount cutTo
  rw [h]
  simp only [Nat.pow_eq, if_true]
  norm_num

theorem ofNat_zero : ofNat 0 = 0 := by decide

theorem classify_zero : classify 0 = .finite false 0 (-1074) := by decide

theorem cutToCount_zero : cutToCount 0 = 0 := by
  rw [cutToCount_of_finite classify_zero, wholePart_zero, Nat.min_zero]

/-- A natural number that is not zero has 53 digits, with zeros behind it if need be. -/
theorem exists_zeros (hn : n ≠ 0) (hsmall : n < 2 ^ 53) :
    ∃ k ≤ 52, 2 ^ 52 ≤ n * 2 ^ k ∧ n * 2 ^ k < 2 ^ 53 := by
  have hlog : n.log2 ≤ 52 := Nat.le_of_lt_succ ((Nat.log2_lt hn).mpr hsmall)
  refine ⟨52 - n.log2, Nat.sub_le _ _, ?_, ?_⟩
  · calc 2 ^ 52 = 2 ^ n.log2 * 2 ^ (52 - n.log2) := by rw [← Nat.pow_add, Nat.add_sub_cancel' hlog]
      _ ≤ n * 2 ^ (52 - n.log2) := Nat.mul_le_mul_right _ (Nat.log2_self_le hn)
  · calc n * 2 ^ (52 - n.log2) < 2 ^ (n.log2 + 1) * 2 ^ (52 - n.log2) :=
        Nat.mul_lt_mul_of_pos_right Nat.lt_log2_self (Nat.two_pow_pos _)
      _ = 2 ^ 53 := by rw [← Nat.pow_add]; congr 1; omega

theorem wholePart_shift (n k : Nat) : wholePart (n * 2 ^ k) (-(k : Int)) = n := by
  unfold wholePart
  simp only [Nat.pow_eq, Int.neg_neg, Int.toNat_natCast]
  split
  · obtain rfl : k = 0 := by omega
    simp
  · exact Nat.mul_div_cancel n (Nat.two_pow_pos k)

/-- A natural number of fewer than 54 bits is rounded to itself: its number has its digits for a
mantissa, with zeros behind them if need be. -/
theorem classify_ofNat (hzero : n ≠ 0) (hn : n < 2 ^ 53) :
    ∃ k : Nat, classify (ofNat n) = .finite false (n * 2 ^ k) (-(k : Int)) := by
  obtain ⟨k, hk, hlow, hhigh⟩ := exists_zeros hzero hn
  have hclass := classify_ofBits (e := 1075 - k) (f := n * 2 ^ k - 2 ^ 52) (by omega) (by omega)
    (by omega)
  have hplace : ((1075 - k : Nat) : Int) - 1075 = -(k : Int) := by omega
  rw [Nat.sub_add_cancel hlow, hplace] at hclass
  exact ⟨k, by rwa [ofNat_eq_ofBits hzero (positiveBits_eq hk rfl hlow hhigh)]⟩

/-- **Counts are exact.** A natural number of fewer than 54 bits is the count that is read off its
number. -/
theorem cutToCount_ofNat (hn : n < 2 ^ 53) : cutToCount (ofNat n) = n := by
  by_cases hzero : n = 0
  · rw [hzero, ofNat_zero, cutToCount_zero]
  · obtain ⟨k, hclass⟩ := classify_ofNat hzero hn
    rw [cutToCount_of_finite hclass, wholePart_shift]
    omega

/-- It is the exact value of its number, too. -/
theorem toInt?_ofNat (hn : n < 2 ^ 53) : toInt? (ofNat n) = some (n : Int) := by
  by_cases hzero : n = 0
  · unfold toInt?
    rw [hzero, ofNat_zero, classify_zero]
    simp [isWhole_zero, wholePart_zero]
  · obtain ⟨k, hclass⟩ := classify_ofNat hzero hn
    have hwhole : isWhole (n * 2 ^ k) (-(k : Int)) = true := by simp [isWhole]
    unfold toInt?
    rw [hclass]
    simp [hwhole, wholePart_shift]

/-- **Large.** The bits of a number from `2 ^ 53` on, or of infinity. -/
def IsLarge (bits : Nat) : Prop :=
  ∃ e f, 1076 ≤ e ∧ (e < 2047 ∧ f < 2 ^ 52 ∨ e = 2047 ∧ f = 0) ∧ bits = e * 2 ^ 52 + f

/-- A mantissa of 53 digits may be rounded up to one more. -/
theorem isLarge_encode (hlow : 2 ^ 52 ≤ m) (hhigh : m ≤ 2 ^ 53) (hq : 1 ≤ q) :
    IsLarge (encode m q) := by
  unfold encode
  simp only [Nat.pow_eq]
  by_cases hcarry : m = 2 ^ 53
  · subst hcarry
    simp only [BEq.rfl, if_true]
    split
    · exact ⟨2047, 0, by omega, .inr ⟨rfl, rfl⟩, rfl⟩
    · exact ⟨(q + 1 + 1075).toNat, 0, by omega, .inl ⟨by omega, by omega⟩, by simp⟩
  · have hbeq : (m == 2 ^ 53) = false := beq_false_of_ne hcarry
    simp only [hbeq, Bool.false_eq_true, if_false]
    split
    · exact ⟨2047, 0, by omega, .inr ⟨rfl, rfl⟩, rfl⟩
    · rw [if_neg (Nat.not_lt.mpr hlow)]
      exact ⟨(q + 1075).toNat, m - 2 ^ 52, by omega, .inl ⟨by omega, by omega⟩, rfl⟩

section Large

variable {e : Nat} (hlow : 2 ^ e * 2 ^ 52 ≤ n) (hhigh : n < 2 ^ e * 2 ^ 53)

theorem scale_natCast (n e : Nat) : scale n 1 (e : Int) = (n, 2 ^ e) := by
  unfold scale
  rw [if_pos (Int.natCast_nonneg e), Int.toNat_natCast, Nat.one_mul, Nat.pow_eq]

include hlow hhigh

/-- The exponent of a natural number that has more digits than a mantissa. -/
theorem binaryExponent_of_large : binaryExponent n 1 = e := by
  have hne : n ≠ 0 := by
    have hpos := Nat.mul_pos (Nat.two_pow_pos e) (Nat.two_pow_pos 52)
    omega
  have hlog : n.log2 = e + 52 := by
    rw [Nat.log2_eq_iff hne]
    rw [← Nat.pow_add] at hlow hhigh
    exact ⟨hlow, hhigh⟩
  have hstart : (n.log2 : Int) - (Nat.log2 1 : Nat) - 52 = e := by
    rw [hlog, show Nat.log2 1 = 0 by decide]
    omega
  unfold binaryExponent
  simp only [hstart, scale_natCast, Nat.pow_eq]
  exact if_neg (Nat.not_lt.mpr hlow)

/-- Its digits, rounded to a mantissa. -/
theorem mantissaAt_of_large :
    2 ^ 52 ≤ mantissaAt n 1 (e : Int) ∧ mantissaAt n 1 (e : Int) ≤ 2 ^ 53 := by
  have hquotient : 2 ^ 52 ≤ n / 2 ^ e :=
    (Nat.le_div_iff_mul_le (Nat.two_pow_pos e)).mpr (by rwa [Nat.mul_comm])
  have hquotient' : n / 2 ^ e < 2 ^ 53 := Nat.div_lt_of_lt_mul hhigh
  unfold mantissaAt roundHalfEven
  simp only [scale_natCast]
  split_ifs <;> omega

end Large

theorem isLarge_positiveBits (hn : 2 ^ 53 ≤ n) : IsLarge (positiveBits n 1) := by
  have hne : n ≠ 0 := by omega
  have hlog : 53 ≤ n.log2 := (Nat.le_log2 hne).mpr hn
  obtain ⟨e, he⟩ := Nat.exists_eq_add_of_le' hlog
  have hlow : 2 ^ (e + 1) * 2 ^ 52 ≤ n := by
    rw [← Nat.pow_add, Nat.add_assoc, ← he]
    exact Nat.log2_self_le hne
  have hhigh : n < 2 ^ (e + 1) * 2 ^ 53 := by
    rw [← Nat.pow_add, Nat.add_right_comm, ← he]
    exact Nat.lt_log2_self
  have hq : max (binaryExponent n 1) (-1074) = ((e + 1 : Nat) : Int) := by
    rw [binaryExponent_of_large hlow hhigh]
    omega
  obtain ⟨hmantissa, hmantissa'⟩ := mantissaAt_of_large hlow hhigh
  unfold positiveBits
  simp only [hq]
  exact isLarge_encode hmantissa hmantissa' (by omega)

/-- Rounding does not make a count small that is too large to be exact. -/
theorem two_pow_le_cutToCount (hn : 2 ^ 53 ≤ n) : 2 ^ 53 ≤ cutToCount (ofNat n) := by
  obtain ⟨e, f, he, hbits, hpositive⟩ := isLarge_positiveBits hn
  rw [ofNat_eq_ofBits (by omega) hpositive]
  rcases hbits with ⟨he', hf⟩ | ⟨rfl, rfl⟩
  · rw [cutToCount_of_finite (classify_ofBits (by omega) he' hf)]
    have hwhole : 2 ^ 53 ≤ wholePart (f + 2 ^ 52) (e - 1075) := by
      unfold wholePart
      rw [if_pos (by omega), Nat.pow_eq]
      have htwo : 2 ^ 1 ≤ 2 ^ ((e : Int) - 1075).toNat :=
        Nat.pow_le_pow_right (by decide) (by omega)
      have hproduct := Nat.mul_le_mul (Nat.le_add_left (2 ^ 52) f) htwo
      omega
    omega
  · -- Infinity is cut to the largest count.
    decide

theorem cutToCount_of_beq (h : (x == y) = true) : cutToCount x = cutToCount y := by
  have hzero : cutToCount (-0) = 0 := cutToCount_of_negative (m := 0) (q := -1074) (by decide)
  obtain ⟨-, -, rfl | ⟨rfl, rfl⟩ | ⟨rfl, rfl⟩⟩ := Float.beq_iff_ne_nan_and_eq.mp h
  · rfl
  · rw [cutToCount_zero, hzero]
  · rw [hzero, cutToCount_zero]

/-- Only zero is counted as zero. -/
theorem eq_zero_of_cutToCount (h : cutToCount (ofNat n) = 0) : n = 0 := by
  rcases Nat.lt_or_ge n (2 ^ 53) with hn | hn
  · rwa [cutToCount_ofNat hn] at h
  · have hlarge := two_pow_le_cutToCount hn
    omega

/-- A natural number of fewer than 54 bits differs from all others as a number, too. -/
theorem ofNat_beq_ofNat (hn : n < 2 ^ 53) : (ofNat m == ofNat n) = true ↔ m = n := by
  constructor
  · intro h
    have hcount := cutToCount_of_beq h
    rw [cutToCount_ofNat hn] at hcount
    rcases Nat.lt_or_ge m (2 ^ 53) with hm | hm
    · rwa [cutToCount_ofNat hm] at hcount
    · have hlarge := two_pow_le_cutToCount hm
      omega
  · rintro rfl
    refine Float.beq_self_iff.mpr fun hnan => ?_
    have hzero : cutToCount (ofNat m) = 0 := by
      rw [hnan]
      decide
    obtain rfl := eq_zero_of_cutToCount hzero
    exact absurd hnan (by decide)

theorem cutToCount_neg_one : cutToCount (-1) = 0 := by
  have hclass : classify (-1) = .finite true (2 ^ 52) (-52) := by decide
  exact cutToCount_of_negative hclass

/-- No natural number is -1 as a number. -/
theorem ofNat_beq_neg_one (n : Nat) : (ofNat n == -1) = false := by
  rw [← Bool.not_eq_true]
  intro h
  obtain rfl := eq_zero_of_cutToCount ((cutToCount_of_beq h).trans cutToCount_neg_one)
  exact absurd h (by decide)

theorem neg_one_beq_ofNat (n : Nat) : (-1 == ofNat n) = false := by
  rw [← Bool.not_eq_true]
  intro h
  obtain rfl := eq_zero_of_cutToCount ((cutToCount_of_beq h).symm.trans cutToCount_neg_one)
  exact absurd h (by decide)

end ScriptLang.Binary
