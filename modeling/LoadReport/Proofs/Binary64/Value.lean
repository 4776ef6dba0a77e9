import LoadReport.Binary64
import LoadReport.Proofs.Binary64.Comparison

/-! # The number a float stands for

The sign, the significand and the exponent read off the bits of a finite float are those that its
arithmetic works with. Below the sign, the bits count up with the magnitude; this holds of all bit
patterns, as if infinities and NaN stood for numbers too.
-/

namespace LoadReport.Binary64

open Float.Model Float.Model.UnpackedFloat

variable {s : Sign} {q : ℚ} {x y : Float}

def sign (x : Float) : Sign := if isNegative x then .negative else .positive

/-- The number that the bits behind the sign stand for. -/
def magnitude (x : Float) : ℚ := significand x * 2 ^ exponent x

def value (x : Float) : ℚ := signed (sign x) (magnitude x)

theorem magnitude_nonneg (x : Float) : 0 ≤ magnitude x :=
  mul_nonneg (Nat.cast_nonneg _) (two_zpow_pos _).le

/-! ### The fields of a word -/

theorem toNat_unpackSign (b : BitVec 64) :
    (@unpackSign Format.binary64 b).toNat = b.toNat / 2 ^ 63 := by
  have hb := b.isLt
  change (b.extractLsb 63 63).toNat = _
  rw [BitVec.extractLsb_toNat, Nat.shiftRight_eq_div_pow]
  omega

theorem toNat_unpackExponent (b : BitVec 64) :
    (@unpackExponent Format.binary64 b).toNat = b.toNat / 2 ^ 52 % 2 ^ 11 := by
  change (b.extractLsb 62 52).toNat = _
  rw [BitVec.extractLsb_toNat, Nat.shiftRight_eq_div_pow]

theorem toNat_unpackMantissa (b : BitVec 64) :
    (@unpackMantissa Format.binary64 b).toNat = b.toNat % 2 ^ 52 := by
  change (b.extractLsb 51 0).toNat = _
  rw [BitVec.extractLsb_toNat, Nat.shiftRight_zero]

theorem ofBitVec_unpackSign (x : Float) :
    Sign.ofBitVec (@unpackSign Format.binary64 x.toModel.toBits.toBitVec) = sign x := by
  have hbits := x.toBits.toNat_lt
  have hsign := toNat_unpackSign x.toModel.toBits.toBitVec
  change _ = x.toBits.toNat / 2 ^ 63 at hsign
  have htop : (0x8000000000000000 : UInt64).toNat = 2 ^ 63 := rfl
  simp only [sign, isNegative, Sign.ofBitVec, UInt64.le_iff_toNat_le, htop, decide_eq_true_eq]
  split_ifs with hzero hneg hneg
  · rw [hzero, BitVec.toNat_ofNat] at hsign
    omega
  · rfl
  · rfl
  · refine absurd (BitVec.eq_of_toNat_eq ?_) hzero
    rw [hsign, BitVec.toNat_ofNat]
    omega

theorem toNat_exponentBits (x : Float) :
    (@unpackExponent Format.binary64 x.toModel.toBits.toBitVec).toNat = exponentBits x :=
  toNat_unpackExponent _

theorem toNat_fractionBits (x : Float) :
    (@unpackMantissa Format.binary64 x.toModel.toBits.toBitVec).toNat = fractionBits x :=
  toNat_unpackMantissa _

/-! ### Finite floats -/

theorem denotes_of_unpackExponent_ne
    (h : @unpackExponent Format.binary64 x.toModel.toBits.toBitVec ≠ -1#11) :
    Denotes (sign x) (magnitude x) x.toModel.unpack := by
  change Denotes _ _ (UnpackedFloat.unpack Format.binary64 x.toModel.toBits.toBitVec)
  unfold magnitude significand exponent
  by_cases hzero : @unpackExponent Format.binary64 x.toModel.toBits.toBitVec = 0#11
  · have hbits : exponentBits x = 0 := by
      rw [← toNat_exponentBits, hzero]
      rfl
    rw [if_pos hbits, hbits, ← toNat_fractionBits]
    rcases (@unpackMantissa Format.binary64 x.toModel.toBits.toBitVec).toNat.eq_zero_or_pos with
      hm | hm
    · rw [unpack_of_zero hzero (BitVec.eq_of_toNat_eq hm), ofBitVec_unpackSign, hm, Nat.cast_zero,
        zero_mul]
      exact .zero
    · rw [unpack_of_subnormal hzero hm, ofBitVec_unpackSign]
      exact .finite _ (canonical_subnormal _)
  · have hrange := toNat_exponent hzero h
    have hbits : exponentBits x ≠ 0 := by
      rw [← toNat_exponentBits]
      omega
    have hmax : ((max (exponentBits x) 1 : ℕ) : ℤ) = exponentBits x := by omega
    rw [if_neg hbits, hmax, unpack_of_normal hzero h, ofBitVec_unpackSign, ← toNat_exponentBits,
      ← toNat_fractionBits]
    exact .finite _ (canonical_normal _ hrange.1)

theorem denotes_unpack (h : x.isFinite = true) :
    Denotes (sign x) (magnitude x) x.toModel.unpack := by
  apply denotes_of_unpackExponent_ne
  intro hinf
  exact Bool.false_ne_true ((isFinite_unpack_of_infinite hinf).symm.trans h)

/-- A finite float is the number that is read off its bits. -/
theorem is_of_isFinite (h : x.isFinite = true) : Is x (sign x) (magnitude x) := by
  obtain ⟨s, q, hx⟩ := exists_is h
  obtain ⟨rfl, rfl⟩ := (denotes_unpack h).unique hx.denotes
  exact hx

theorem Is.sign_eq (h : Is x s q) : sign x = s :=
  ((denotes_unpack h.isFinite).unique h.denotes).1

theorem Is.magnitude_eq (h : Is x s q) : magnitude x = q :=
  ((denotes_unpack h.isFinite).unique h.denotes).2

theorem Is.value_eq (h : Is x s q) : value x = signed s q := by
  rw [value, h.sign_eq, h.magnitude_eq]

theorem le_iff_value_le (hx : x.isFinite = true) (hy : y.isFinite = true) :
    x ≤ y ↔ value x ≤ value y :=
  (is_of_isFinite hx).le_iff (is_of_isFinite hy)

theorem abs_value (x : Float) : |value x| = magnitude x := by
  rw [value, abs_signed, abs_of_nonneg (magnitude_nonneg x)]

/-! ### All bit patterns -/

theorem canonical_significand (x : Float) : Canonical (significand x) (exponent x) := by
  have hfraction : fractionBits x < 2 ^ 52 := Nat.mod_lt _ (by decide)
  unfold significand exponent
  constructor
  case lt => split_ifs <;> omega
  case ge => omega
  case full => split_ifs <;> omega

theorem magnitude_le_iff : magnitude x ≤ magnitude y ↔
    x.toBits.toNat % 2 ^ 63 ≤ y.toBits.toNat % 2 ^ 63 := by
  have hx := canonical_significand x
  have hy := canonical_significand y
  rcases lt_trichotomy (exponent x) (exponent y) with h | h | h
  · refine iff_of_true (hx.lt_of_exponent_lt hy h).le ?_
    unfold exponent exponentBits at h
    omega
  · rw [magnitude, magnitude, h, mul_le_mul_iff_left₀ (two_zpow_pos _), Nat.cast_le]
    -- The least normal numbers have the exponent of the subnormal ones.
    unfold exponent at h
    unfold significand fractionBits
    unfold exponentBits at *
    split_ifs <;> omega
  · refine iff_of_false (hy.lt_of_exponent_lt hx h).not_ge ?_
    unfold exponent exponentBits at h
    omega

theorem unpackExponent_ne_of_magnitude_lt (h : magnitude x < 2 ^ (1024 : ℤ)) :
    @unpackExponent Format.binary64 x.toModel.toBits.toBitVec ≠ -1#11 := by
  intro hinf
  have hbits : exponentBits x = 2047 := by
    rw [← toNat_exponentBits, hinf]
    rfl
  have hle := (canonical_significand x).exponent_le h
  unfold exponent at hle
  omega

/-- The range of the finite floats, by their bits. -/
theorem isFinite_iff : x.isFinite = true ↔ magnitude x < 2 ^ (1024 : ℤ) :=
  ⟨fun h => (is_of_isFinite h).lt,
    fun h => (denotes_of_unpackExponent_ne (unpackExponent_ne_of_magnitude_lt h)).isFinite⟩

theorem nearest_magnitude (x : Float) : nearest (magnitude x) = magnitude x :=
  nearest_mul_two_zpow (canonical_significand x).lt (canonical_significand x).ge

theorem rounded_value (x : Float) : rounded (value x) = value x := by
  rw [value, rounded_signed _ (magnitude_nonneg x), nearest_magnitude]

/-- Twice a float is a float too, if the range is open upwards. -/
theorem rounded_value_mul_two (x : Float) : rounded (value x * 2) = value x * 2 := by
  have hc := canonical_significand x
  have hexponent : -1074 ≤ exponent x + 1 := hc.ge.trans (Int.le_add_one le_rfl)
  have hdouble : magnitude x * 2 = significand x * 2 ^ (exponent x + 1) := by
    rw [magnitude, mul_assoc, zpow_add_one₀ two_ne_zero]
  rw [value, signed_mul, rounded_signed _ (mul_nonneg (magnitude_nonneg x) zero_le_two), hdouble,
    nearest_mul_two_zpow hc.lt hexponent]

end LoadReport.Binary64
