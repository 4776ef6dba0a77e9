import LoadReport.Proofs.Binary64.Packing
import Mathlib.Algebra.Order.Field.Power

/-! # Arithmetic of floats

Products, quotients and natural numbers are the nearest floats of the exact results, as long as
these are in the range.
-/

namespace LoadReport.Binary64

open Float.Model Float.Model.UnpackedFloat

variable {s t : Sign} {p q : ℚ} {u v : UnpackedFloat} {x y : Float} {m n : ℕ} {e f : ℤ}

theorem Canonical.add_le_lastPlace (hm : 0 < m) (hn : 0 < n) (hc : Canonical m e)
    (hd : Canonical n f) : e + f ≤ lastPlace ((m * n : ℕ) * 2 ^ (e + f)) := by
  obtain ⟨-, -, hfull⟩ := hc
  obtain ⟨-, -, hfull'⟩ := hd
  have hpos : 0 < m * n := Nat.mul_pos hm hn
  rw [lastPlace_eq hpos le_rfl (lt_add_one _)]
  by_cases h : 2 ^ 52 ≤ m * n
  · have hlog := (Nat.le_log2 hpos.ne').mpr h
    omega
  · have hle : m ≤ m * n := Nat.le_mul_of_pos_right m hn
    have hle' : n ≤ m * n := Nat.le_mul_of_pos_left n hm
    omega

theorem mul_finite (hm : 0 < m) (hn : 0 < n) :
    UnpackedFloat.mul Format.binary64 (.finite s m e hm) (.finite t n f hn) =
      roundWithAccuracy Format.binary64 (s * t) (m * n) (e + f) .exact := rfl

theorem Denotes.mul (hu : Denotes s p u) (hv : Denotes t q v) :
    Denotes (s * t) (nearest (p * q)) (UnpackedFloat.mul Format.binary64 u v) := by
  cases hu with
  | zero =>
    rw [zero_mul, nearest_zero]
    cases hv <;> exact .zero
  | @finite m e hm hc =>
    cases hv with
    | zero =>
      rw [mul_zero, nearest_zero]
      exact .zero
    | @finite n f hn hd =>
      have hvalue : (m * 2 ^ e * (n * 2 ^ f) : ℚ) = (m * n : ℕ) * 2 ^ (e + f) := by
        rw [zpow_add₀ two_ne_zero]
        push_cast
        ring
      rw [hvalue]
      exact denotes_roundWithAccuracy _ (tells_exact _) (by exact_mod_cast Nat.mul_pos hm hn) rfl
        (hc.add_le_lastPlace hm hn hd)

theorem two_zpow_le_div (hm : 0 < m) (hn : 0 < n) :
    (2 : ℚ) ^ (m.log2 + e - (n.log2 + f) - 1) ≤ m * 2 ^ e / (n * 2 ^ f) := by
  have hlow : (2 : ℚ) ^ m.log2 ≤ m := by exact_mod_cast Nat.log2_self_le hm.ne'
  have hhigh : (n : ℚ) ≤ 2 ^ (n.log2 + 1) := by exact_mod_cast Nat.lt_log2_self.le
  have hnpos : (0 : ℚ) < n := by exact_mod_cast hn
  rw [le_div_iff₀ (mul_pos hnpos (two_zpow_pos f))]
  calc
    (2 : ℚ) ^ (m.log2 + e - (n.log2 + f) - 1) * (n * 2 ^ f)
      ≤ 2 ^ (m.log2 + e - (n.log2 + f) - 1) * (2 ^ (n.log2 + 1) * 2 ^ f) := by gcongr
    _ = 2 ^ m.log2 * 2 ^ e := by
      rw [← zpow_natCast, ← zpow_natCast, ← zpow_add₀ two_ne_zero, ← zpow_add₀ two_ne_zero,
        ← zpow_add₀ two_ne_zero]
      congr 1
      push_cast
      ring
    _ ≤ m * 2 ^ e := by gcongr

theorem Denotes.div (hu : Denotes s p u) (hv : Denotes t q v) (hq : 0 < q) :
    Denotes (s / t) (nearest (p / q)) (UnpackedFloat.div Format.binary64 u v) := by
  cases hv with
  | zero => exact absurd hq (lt_irrefl _)
  | @finite n f hn hd =>
    cases hu with
    | zero =>
      rw [zero_div, nearest_zero]
      exact .zero
    | @finite m e hm hc =>
      change Denotes _ _ (match divCore Format.binary64 m e n f with
        | (m, e, accuracy) => roundWithAccuracy Format.binary64 (s / t) m e accuracy)
      have hnpos : (0 : ℚ) < n := by exact_mod_cast hn
      have htarget : Format.binary64.targetExponent (totalExponent m e - totalExponent n f) =
          max (m.log2 + e - (n.log2 + f) - 53) (-1074) := by
        rw [Format.targetExponent, totalExponent, totalExponent,
          show Format.binary64.minExponent = -1074 from rfl,
          show Format.binary64.mantissaBits = 53 from rfl]
        omega
      have hlog : m.log2 + e - (n.log2 + f) - 1 ≤ Int.log 2 (m * 2 ^ e / (n * 2 ^ f) : ℚ) :=
        (le_log_iff (by positivity)).mpr (two_zpow_le_div hm hn)
      unfold divCore
      simp only [htarget]
      generalize hg : min (e - f) (max (m.log2 + e - (n.log2 + f) - 53 : ℤ) (-1074)) = g
      obtain ⟨k, hk⟩ : ∃ k : ℕ, e - f - g = k := Int.eq_ofNat_of_zero_le (by omega)
      have hvalue : (m * 2 ^ e / (n * 2 ^ f) : ℚ) = ((m <<< k : ℕ) / n : ℚ) * 2 ^ g := by
        rw [Nat.shiftLeft_eq, show e = g + k + f by omega, zpow_add₀ two_ne_zero,
          zpow_add₀ two_ne_zero, zpow_natCast]
        push_cast
        field_simp
      rw [show (e - f - g).toNat = k by omega]
      refine denotes_roundWithAccuracy _ (tells_div _ hn) ?_ hvalue (by unfold lastPlace; omega)
      rw [Nat.shiftLeft_eq]
      positivity

theorem Denotes.neg (h : Denotes s q u) : Denotes (-s) q u.neg := by
  cases h with
  | zero => exact .zero
  | finite hm hc => exact .finite hm hc

theorem Is.neg (hx : Is x s p) : Is (-x) (-s) p := hx.denotes.neg.is_pack hx.lt

theorem Is.mul (hx : Is x s p) (hy : Is y t q) (h : nearest (p * q) < 2 ^ (1024 : ℤ)) :
    Is (x * y) (s * t) (nearest (p * q)) :=
  (hx.denotes.mul hy.denotes).is_pack h

theorem Is.div (hx : Is x s p) (hy : Is y t q) (hq : 0 < q)
    (h : nearest (p / q) < 2 ^ (1024 : ℤ)) : Is (x / y) (s / t) (nearest (p / q)) :=
  (hx.denotes.div hy.denotes hq).is_pack h

theorem two_zpow_lt_range {k : ℤ} (hk : k < 1024) : (2 : ℚ) ^ k < 2 ^ (1024 : ℤ) :=
  zpow_lt_zpow_right₀ one_lt_two hk

/-! ### Natural numbers and powers of ten -/

theorem denotes_ofNat (n : ℕ) :
    Denotes .positive (nearest n) (UnpackedFloat.ofNat Format.binary64 n) := by
  unfold UnpackedFloat.ofNat UnpackedFloat.ofInt UnpackedFloat.normalize
  rcases n.eq_zero_or_pos with rfl | hn
  · rw [Nat.cast_zero, nearest_zero]
    exact .zero
  · rw [Int.compare_eq_gt.mpr (by omega)]
    simpa using denotes_round .positive hn 0

theorem exactlyRepresentablePowersOfTen_eq (i : Fin 23) :
    Float.exactlyRepresentablePowersOfTen[i] = ⟨Float.Model.ofNat (10 ^ i.val)⟩ := by
  revert i
  decide

theorem nearest_ten_pow (hn : n ≤ 22) : nearest (10 ^ n) = 10 ^ n := by
  have hfive : 5 ^ n < 2 ^ 53 := (Nat.pow_le_pow_right (by decide) hn).trans_lt (by decide)
  have hten : (10 : ℚ) ^ n = (5 ^ n : ℕ) * 2 ^ (n : ℤ) := by
    rw [zpow_natCast]
    push_cast
    rw [← mul_pow]
    norm_num
  rw [hten]
  exact nearest_mul_two_zpow hfive (by omega)

theorem is_ofScientific_of_small (hm : m < 2 ^ 53) (hn : n ≤ 22)
    (hlt : n < Float.exactlyRepresentablePowersOfTen.size)
    (h : nearest (m * 10 ^ n) < 2 ^ (1024 : ℤ)) :
    Is (m.toUInt64.toFloat * Float.exactlyRepresentablePowersOfTen[n]) .positive
      (nearest (m * 10 ^ n)) := by
  have hpower : Is Float.exactlyRepresentablePowersOfTen[n] .positive (10 ^ n) := by
    have hden := denotes_ofNat (10 ^ n)
    rw [Nat.cast_pow, Nat.cast_ofNat, nearest_ten_pow hn] at hden
    have htable := exactlyRepresentablePowersOfTen_eq ⟨n, Nat.lt_succ_of_le hn⟩
    rw [show Float.exactlyRepresentablePowersOfTen[n] = _ from htable]
    refine hden.is_pack ?_
    calc
      (10 : ℚ) ^ n ≤ 10 ^ 22 := pow_le_pow_right₀ (by norm_num) hn
      _ ≤ 2 ^ (74 : ℤ) := by norm_num
      _ < 2 ^ (1024 : ℤ) := two_zpow_lt_range (by decide)
  have hnumber : Is m.toUInt64.toFloat .positive m := by
    have hden := denotes_ofNat m
    rw [nearest_natCast hm] at hden
    have hword : m.toUInt64.toNat = m := Nat.mod_eq_of_lt (hm.trans (by decide))
    change Is ⟨Float.Model.pack (UnpackedFloat.ofNat Format.binary64 m.toUInt64.toNat)⟩ _ _
    rw [hword]
    refine hden.is_pack ?_
    calc
      (m : ℚ) ≤ 2 ^ (53 : ℤ) := by exact_mod_cast hm.le
      _ < 2 ^ (1024 : ℤ) := two_zpow_lt_range (by decide)
  exact hnumber.mul hpower h

theorem exponent_lt_of_nearest_lt (hm : 0 < m)
    (h : nearest (m * 10 ^ n) < 2 ^ (1024 : ℤ)) : n < 1024 := by
  by_contra hn
  have hone : (1 : ℚ) ≤ m := by exact_mod_cast hm
  refine absurd h (not_lt.mpr (two_zpow_le_nearest (by decide) ?_))
  calc
    (2 : ℚ) ^ (1024 : ℤ) ≤ 2 ^ (n : ℤ) := zpow_le_zpow_right₀ one_le_two (by omega)
    _ ≤ 10 ^ n := by
      rw [zpow_natCast]
      exact pow_le_pow_left₀ (by norm_num) (by norm_num) n
    _ ≤ m * 10 ^ n := le_mul_of_one_le_left (by positivity) hone

theorem ofScientific_of_lt (hm : 0 < m) (hn : n < 1024) :
    UnpackedFloat.ofScientific Format.binary64 m n =
      roundWithAccuracy Format.binary64 .positive (m <<< 53 * 10 ^ n) (-53) .exact := by
  have hlarge : ¬ (n : ℤ) > 2 ^ Format.binary64.exponentBits := by
    rw [show Format.binary64.exponentBits = 11 from rfl]
    omega
  have hsmall : ¬ (n : ℤ) < -(2 ^ Format.binary64.exponentBits + m.log2) := by
    rw [show Format.binary64.exponentBits = 11 from rfl]
    omega
  unfold UnpackedFloat.ofScientific
  rw [dif_neg hm.ne', if_neg hlarge, if_neg hsmall, if_pos n.cast_nonneg, mul_finite]
  rfl

theorem denotes_ofScientific_of_lt (hm : 0 < m) (hn : n < 1024) :
    Denotes .positive (nearest (m * 10 ^ n))
      (UnpackedFloat.ofScientific Format.binary64 m (n : ℤ)) := by
  have hpos : 0 < m <<< 53 * 10 ^ n := by
    rw [Nat.shiftLeft_eq]
    positivity
  have hvalue : (m * 10 ^ n : ℚ) = (m <<< 53 * 10 ^ n : ℕ) * 2 ^ (-53 : ℤ) := by
    rw [Nat.shiftLeft_eq, zpow_neg]
    push_cast
    field_simp
  have hlog : 0 ≤ Int.log 2 (m * 10 ^ n : ℚ) := by
    rw [le_log_iff (by positivity), zpow_zero]
    exact_mod_cast (show 0 < m * 10 ^ n by positivity)
  rw [ofScientific_of_lt hm hn]
  exact denotes_roundWithAccuracy _ (tells_exact _) (by exact_mod_cast hpos) hvalue
    (by unfold lastPlace; omega)

theorem denotes_ofScientific (h : nearest (m * 10 ^ n) < 2 ^ (1024 : ℤ)) :
    Denotes .positive (nearest (m * 10 ^ n))
      (UnpackedFloat.ofScientific Format.binary64 m (n : ℤ)) := by
  rcases m.eq_zero_or_pos with rfl | hm
  · rw [Nat.cast_zero, zero_mul, nearest_zero]
    exact .zero
  · exact denotes_ofScientific_of_lt hm (exponent_lt_of_nearest_lt hm h)

/-- A natural number times a power of ten is the nearest float, if that is in the range. -/
theorem is_ofScientific (h : nearest (m * 10 ^ n) < 2 ^ (1024 : ℤ)) :
    Is (Float.ofScientific m false n) .positive (nearest (m * 10 ^ n)) := by
  unfold Float.ofScientific
  by_cases hsmall : m < 2 ^ 53 ∧ n ≤ 22
  · rw [dif_pos hsmall]
    exact is_ofScientific_of_small hsmall.1 hsmall.2 _ h
  · rw [dif_neg hsmall]
    exact (denotes_ofScientific h).is_pack h

theorem is_ofNat (h : nearest n < 2 ^ (1024 : ℤ)) : Is (Float.ofNat n) .positive (nearest n) := by
  have hvalue : (n * 10 ^ 0 : ℚ) = n := by rw [pow_zero, mul_one]
  exact hvalue ▸ is_ofScientific (hvalue.symm ▸ h)

theorem nearest_natCast_le (h : n < 2 ^ 64) : nearest n ≤ 2 ^ (64 : ℤ) :=
  nearest_le_two_zpow (Nat.cast_nonneg n) (by decide) (by exact_mod_cast h.le)

theorem is_ofNat_of_lt (h : n < 2 ^ 64) : Is (Float.ofNat n) .positive (nearest n) :=
  is_ofNat ((nearest_natCast_le h).trans_lt (two_zpow_lt_range (by decide)))

theorem is_ofNat_of_small (h : n < 2 ^ 53) : Is (Float.ofNat n) .positive n := by
  have hnear := is_ofNat_of_lt (h.trans (by decide))
  rwa [nearest_natCast h] at hnear

theorem Is.div_ofNat {d : ℕ} (hx : Is x s (nearest n)) (hn : n < 2 ^ 64) (hd : 0 < d)
    (hd' : d < 2 ^ 53) : Is (x / Float.ofNat d) (s / .positive) (nearest (nearest n / d)) := by
  have hle := nearest_div_le (nearest_nonneg n.cast_nonneg) (by decide) (nearest_natCast_le hn)
    (show (1 : ℚ) ≤ d by exact_mod_cast hd)
  exact hx.div (is_ofNat_of_small hd') (by exact_mod_cast hd)
    (hle.trans_lt (two_zpow_lt_range (by decide)))

/-- An integer of 64 bits, with its sign. -/
theorem is_ofInt {k : ℤ} (hk : k.natAbs < 2 ^ 64) :
    Is (Float.ofInt k) (if 0 ≤ k then .positive else .negative) (nearest k.natAbs) := by
  cases k with
  | ofNat n => exact is_ofNat_of_lt hk
  | negSucc n => exact (is_ofNat_of_lt hk).neg

/-! ### Comparison with zero -/

theorem unpack_zero : (0 : Float).toModel.unpack = .zero .positive := by
  have h : (0 : Float).toModel = Float.Model.pack (.zero .positive) := by decide
  rw [h, unpack_pack_zero]

theorem zero_lt_iff : 0 < y ↔ (UnpackedFloat.zero .positive).lt y.toModel.unpack = true := by
  rw [← unpack_zero]
  exact decide_eq_true_iff

theorem zero_le_iff : 0 ≤ y ↔ (UnpackedFloat.zero .positive).le y.toModel.unpack = true := by
  rw [← unpack_zero]
  exact decide_eq_true_iff

theorem Denotes.zero_le (h : Denotes .positive q u) :
    (UnpackedFloat.zero .positive).le u = true := by
  cases h <;> rfl

theorem Denotes.not_zero_le (h : Denotes .negative q u) (hq : 0 < q) :
    (UnpackedFloat.zero .positive).le u = false := by
  cases h with
  | zero => exact absurd hq (lt_irrefl _)
  | finite => rfl

theorem Is.zero_le (h : Is x .positive q) : 0 ≤ x := zero_le_iff.mpr h.denotes.zero_le

theorem Is.not_zero_le (h : Is x .negative q) (hq : 0 < q) : ¬ 0 ≤ x := by
  rw [zero_le_iff, h.denotes.not_zero_le hq]
  exact Bool.false_ne_true

theorem nearest_div_pos {d : ℕ} (hn : 0 < n) (hd : 0 < d) (hd' : d < 2 ^ 53) :
    0 < nearest (nearest n / d) := by
  have hone : (2 : ℚ) ^ (0 : ℤ) ≤ nearest n :=
    two_zpow_le_nearest (by decide) (by exact_mod_cast hn)
  have hbelow : (2 : ℚ) ^ (-53 : ℤ) ≤ nearest n / d := by
    rw [le_div_iff₀ (by exact_mod_cast hd)]
    calc
      (2 : ℚ) ^ (-53 : ℤ) * d ≤ 2 ^ (-53 : ℤ) * 2 ^ (53 : ℤ) := by
        gcongr
        exact_mod_cast hd'.le
      _ = 2 ^ (0 : ℤ) := by rw [← zpow_add₀ two_ne_zero]; rfl
      _ ≤ nearest n := hone
  exact (two_zpow_pos _).trans_le (two_zpow_le_nearest (by decide) hbelow)

/-- An integer of 64 bits over a number of 53 bits has the sign of the integer. -/
theorem zero_le_ofInt_div {k : ℤ} {d : ℕ} (hk : k.natAbs < 2 ^ 64) (hd : 0 < d) (hd' : d < 2 ^ 53) :
    0 ≤ Float.ofInt k / Float.ofNat d ↔ 0 ≤ k := by
  have hdiv := (is_ofInt hk).div_ofNat hk hd hd'
  by_cases h : 0 ≤ k
  · rw [if_pos h] at hdiv
    exact iff_of_true hdiv.zero_le h
  · rw [if_neg h] at hdiv
    exact iff_of_false (hdiv.not_zero_le (nearest_div_pos (by omega) hd hd')) h

end LoadReport.Binary64
