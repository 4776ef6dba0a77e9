import LoadReport.Proofs.Binary64.Mantissa

/-! # Packing floats into words

A float is kept as a word of 64 bits. Packing a canonical number below the upper end of the range
and unpacking it again gives it back. Packing never makes NaN of a number.
-/

namespace LoadReport.Binary64

open Float.Model Float.Model.UnpackedFloat

variable {s : Sign} {m : ℕ} {e : ℤ} {q : ℚ} {u : UnpackedFloat} {b : BitVec 64}
  {exponent : BitVec 11} {mantissa : BitVec 52}

theorem ofBitVec_toBitVec (s : Sign) : Sign.ofBitVec s.toBitVec = s := by
  cases s <;> rfl

theorem extractLsb_append_append (a : BitVec 1) (b : BitVec 11) (c : BitVec 52) :
    (a ++ b ++ c).extractLsb 63 63 = a := by
  apply BitVec.eq_of_getLsbD_eq
  intro i hi
  obtain rfl : i = 0 := by omega
  simp only [BitVec.getLsbD_extractLsb, BitVec.getLsbD_append]
  simp

theorem unpackSign_packComponents (s : Sign) (exponent : BitVec 11) (mantissa : BitVec 52) :
    unpackSign (packComponents Format.binary64 s exponent mantissa) = s.toBitVec :=
  extractLsb_append_append s.toBitVec exponent mantissa

theorem toNat_leading_append (mantissa : BitVec 52) :
    (1#1 ++ mantissa).toNat = 2 ^ 52 + mantissa.toNat := by
  rw [BitVec.toNat_append, ← Nat.shiftLeft_add_eq_or_of_lt mantissa.isLt]
  rfl

theorem unpack_of_zero (hzero : @unpackExponent Format.binary64 b = 0#11)
    (h : @unpackMantissa Format.binary64 b = 0#52) :
    UnpackedFloat.unpack Format.binary64 b =
      .zero (Sign.ofBitVec (@unpackSign Format.binary64 b)) := by
  have hinf : @unpackExponent Format.binary64 b ≠ -1#11 := hzero ▸ by decide
  unfold UnpackedFloat.unpack
  dsimp only
  rw [if_neg hinf, if_pos hzero, dif_pos h]

theorem unpack_of_subnormal (hzero : @unpackExponent Format.binary64 b = 0#11)
    (h : 0 < (@unpackMantissa Format.binary64 b).toNat) :
    UnpackedFloat.unpack Format.binary64 b =
      .finite (Sign.ofBitVec (@unpackSign Format.binary64 b))
        (@unpackMantissa Format.binary64 b).toNat (-1074) h := by
  have hne : @unpackMantissa Format.binary64 b ≠ 0#52 := fun hm => by
    rw [hm] at h
    exact absurd h (by decide)
  have hinf : @unpackExponent Format.binary64 b ≠ -1#11 := hzero ▸ by decide
  unfold UnpackedFloat.unpack
  dsimp only
  rw [if_neg hinf, if_pos hzero, dif_neg hne, hzero]
  rfl

theorem unpack_of_normal (hzero : @unpackExponent Format.binary64 b ≠ 0#11)
    (hinf : @unpackExponent Format.binary64 b ≠ -1#11) :
    UnpackedFloat.unpack Format.binary64 b =
      .finite (Sign.ofBitVec (@unpackSign Format.binary64 b))
        (2 ^ 52 + (@unpackMantissa Format.binary64 b).toNat)
        ((@unpackExponent Format.binary64 b).toNat - 1075) (by omega) := by
  unfold UnpackedFloat.unpack
  dsimp only
  rw [if_neg hinf, if_neg hzero, UnpackedFloat.finite.injEq]
  exact ⟨rfl, toNat_leading_append _, rfl⟩

theorem isFinite_unpack_of_infinite (hinf : @unpackExponent Format.binary64 b = -1#11) :
    (UnpackedFloat.unpack Format.binary64 b).isFinite = false := by
  unfold UnpackedFloat.unpack
  dsimp only
  rw [if_pos hinf]
  by_cases hm : @unpackMantissa Format.binary64 b = 0#52
  · rw [if_pos hm]
    rfl
  · rw [if_neg hm]
    rfl

theorem unpack_subnormal (s : Sign) (h : 0 < mantissa.toNat) :
    UnpackedFloat.unpack Format.binary64 (packComponents Format.binary64 s 0#11 mantissa) =
      .finite s mantissa.toNat (-1074) h := by
  have hmantissa : @unpackMantissa Format.binary64
      (packComponents Format.binary64 s 0#11 mantissa) = mantissa := unpackMantissa_packComponents
  rw [unpack_of_subnormal unpackExponent_packComponents (hmantissa.symm ▸ h),
    UnpackedFloat.finite.injEq, unpackSign_packComponents, ofBitVec_toBitVec, hmantissa]
  exact ⟨rfl, rfl, rfl⟩

theorem unpack_normal (s : Sign) (hzero : exponent ≠ 0#11) (hinf : exponent ≠ -1#11) :
    UnpackedFloat.unpack Format.binary64 (packComponents Format.binary64 s exponent mantissa) =
      .finite s (2 ^ 52 + mantissa.toNat) (exponent.toNat - 1075) (by omega) := by
  rw [unpack_of_normal (unpackExponent_packComponents.trans_ne hzero)
      (unpackExponent_packComponents.trans_ne hinf),
    UnpackedFloat.finite.injEq, unpackSign_packComponents, ofBitVec_toBitVec,
    unpackMantissa_packComponents, unpackExponent_packComponents]
  exact ⟨rfl, rfl, rfl⟩

theorem isNaN_unpack (s : Sign) (mantissa : BitVec 52) (hinf : exponent ≠ -1#11) :
    (UnpackedFloat.unpack Format.binary64
      (packComponents Format.binary64 s exponent mantissa)).isNaN = false := by
  by_cases hzero : exponent = 0#11
  · rcases mantissa.toNat.eq_zero_or_pos with hm | hm
    · obtain rfl : mantissa = 0#52 := BitVec.eq_of_toNat_eq hm
      subst hzero
      cases s <;> rfl
    · rw [hzero, unpack_subnormal s hm]
      rfl
  · rw [unpack_normal s hzero hinf]
    rfl

theorem unpack_pack_infinity (s : Sign) :
    (Float.Model.pack (.infinity s)).unpack = .infinity s := by
  cases s <;> rfl

theorem unpack_pack_zero (s : Sign) : (Float.Model.pack (.zero s)).unpack = .zero s := by
  cases s <;> rfl

theorem pack_finite (h : 0 < m) :
    UnpackedFloat.pack Format.binary64 (.finite s m e h) =
      if 2047 ≤ (e + 1075).toNat then packedInfinity Format.binary64 s
      else if m.log2 = 52 then
        packComponents Format.binary64 s (BitVec.ofNat 11 (e + 1075).toNat) (BitVec.ofNat 52 m)
      else packComponents Format.binary64 s 0#11 (BitVec.ofNat 52 m) := by
  have hexponent : e + Format.binary64.exponentBias + Format.binary64.mantissaBitsWithoutImplicit =
      e + 1075 := by
    rw [show Format.binary64.exponentBias = 1023 from rfl,
      show Format.binary64.mantissaBitsWithoutImplicit = 52 from rfl]
    omega
  have hbits : m.log2 + 1 = Format.binary64.mantissaBits ↔ m.log2 = 52 := by
    rw [show Format.binary64.mantissaBits = 53 from rfl]
    omega
  have hrange : 2 ^ Format.binary64.exponentBits ≤ (e + 1075).toNat + 1 ↔
      2047 ≤ (e + 1075).toNat := by
    rw [show 2 ^ Format.binary64.exponentBits = 2048 from rfl]
    omega
  unfold UnpackedFloat.pack
  dsimp only
  simp only [hexponent, hbits, hrange]

/-- Canonical numbers in the range survive packing. -/
theorem unpack_pack_finite (h : 0 < m) (hc : Canonical m e) (he : e ≤ 971) :
    (Float.Model.pack (.finite s m e h)).unpack = .finite s m e h := by
  obtain ⟨hlt, hge, hfull⟩ := hc
  change UnpackedFloat.unpack Format.binary64 (UnpackedFloat.pack Format.binary64 _) = _
  rw [pack_finite, if_neg (by omega)]
  by_cases hm : 2 ^ 52 ≤ m
  · have hlog : m.log2 = 52 := (Nat.log2_eq_iff h.ne').mpr ⟨hm, hlt⟩
    have hexponent : (BitVec.ofNat 11 (e + 1075).toNat).toNat = (e + 1075).toNat := by
      rw [BitVec.toNat_ofNat, Nat.mod_eq_of_lt (by omega)]
    have hmantissa : (BitVec.ofNat 52 m).toNat = m - 2 ^ 52 := by
      rw [BitVec.toNat_ofNat, Nat.mod_eq_sub_mod hm, Nat.mod_eq_of_lt (by omega)]
    rw [if_pos hlog, unpack_normal, UnpackedFloat.finite.injEq, hexponent, hmantissa]
    · exact ⟨rfl, by omega, by omega⟩
    · intro hzero
      rw [hzero, BitVec.toNat_ofNat] at hexponent
      omega
    · intro hinf
      rw [hinf, show (-1#11 : BitVec 11).toNat = 2047 from rfl] at hexponent
      omega
  · have hlog : m.log2 ≠ 52 := fun hlog => hm ((Nat.log2_eq_iff h.ne').mp hlog).1
    have hmantissa : (BitVec.ofNat 52 m).toNat = m := by
      rw [BitVec.toNat_ofNat, Nat.mod_eq_of_lt (by omega)]
    rw [if_neg hlog, unpack_subnormal s (by omega), UnpackedFloat.finite.injEq, hmantissa]
    exact ⟨rfl, rfl, by omega⟩

/-- Packing a number, even one that is too large, does not make it NaN. -/
theorem isNaN_unpack_pack (u : UnpackedFloat) : (Float.Model.pack u).unpack.isNaN = u.isNaN := by
  cases u with
  | notANumber => rfl
  | infinity s => rw [unpack_pack_infinity]
  | zero s => rw [unpack_pack_zero]
  | finite s m e h =>
    change (UnpackedFloat.unpack Format.binary64
      (UnpackedFloat.pack Format.binary64 _)).isNaN = false
    rw [pack_finite]
    split_ifs with hinf hlog
    · cases s <;> rfl
    · refine isNaN_unpack s _ fun hne => ?_
      have hexponent := congrArg BitVec.toNat hne
      rw [BitVec.toNat_ofNat, show (-1#11 : BitVec 11).toNat = 2047 from rfl] at hexponent
      omega
    · exact isNaN_unpack s _ (by decide)

/-- The float `x` is the number `q` with the sign `s`. -/
structure Is (x : Float) (s : Sign) (q : ℚ) : Prop where
  denotes : Denotes s q x.toModel.unpack
  lt : q < 2 ^ (1024 : ℤ)

theorem Canonical.exponent_le (hc : Canonical m e) (h : (m * 2 ^ e : ℚ) < 2 ^ (1024 : ℤ)) :
    e ≤ 971 := by
  obtain ⟨-, -, hfull⟩ := hc
  by_contra hlarge
  have hm : (2 : ℚ) ^ 52 ≤ m := by exact_mod_cast hfull.resolve_right (by omega)
  refine absurd h (not_lt.mpr ?_)
  calc
    (2 : ℚ) ^ (1024 : ℤ) ≤ 2 ^ (52 + e) := zpow_le_zpow_right₀ one_le_two (by omega)
    _ = 2 ^ 52 * 2 ^ e := zpow_add₀ two_ne_zero _ _
    _ ≤ m * 2 ^ e := mul_le_mul_of_nonneg_right hm (two_zpow_pos e).le

theorem Canonical.lt_of_exponent_le (hc : Canonical m e) (he : e ≤ 971) :
    (m * 2 ^ e : ℚ) < 2 ^ (1024 : ℤ) := by
  have hm : (m : ℚ) < 2 ^ 53 := by exact_mod_cast hc.lt
  calc
    (m * 2 ^ e : ℚ) < 2 ^ 53 * 2 ^ e := mul_lt_mul_of_pos_right hm (two_zpow_pos e)
    _ = 2 ^ (53 + e) := by
      rw [zpow_add₀ two_ne_zero]
      rfl
    _ ≤ 2 ^ (1024 : ℤ) := zpow_le_zpow_right₀ one_le_two (by omega)

/-- What is below the upper end of the range can be packed. -/
theorem Denotes.is_pack (h : Denotes s q u) (hq : q < 2 ^ (1024 : ℤ)) :
    Is ⟨Float.Model.pack u⟩ s q := by
  refine ⟨?_, hq⟩
  change Denotes s q (Float.Model.pack u).unpack
  cases h with
  | zero =>
    rw [unpack_pack_zero]
    exact .zero
  | finite hm hc =>
    rw [unpack_pack_finite hm hc (hc.exponent_le hq)]
    exact .finite hm hc

theorem Denotes.isFinite (h : Denotes s q u) : u.isFinite = true := by
  cases h <;> rfl

theorem Is.isFinite {x : Float} (h : Is x s q) : x.isFinite = true := h.denotes.isFinite

/-- What is not below the upper end of the range becomes infinite when it is packed. -/
theorem Denotes.unpack_pack_of_le (h : Denotes s q u) (hq : 2 ^ (1024 : ℤ) ≤ q) :
    (Float.Model.pack u).unpack = .infinity s := by
  cases h with
  | zero => exact absurd hq (not_le.mpr (two_zpow_pos _))
  | @finite m e hm hc =>
    have he : ¬ e ≤ 971 := fun he => absurd hq (not_le.mpr (hc.lt_of_exponent_le he))
    rw [← unpack_pack_infinity]
    change UnpackedFloat.unpack Format.binary64 (UnpackedFloat.pack Format.binary64 _) =
      UnpackedFloat.unpack Format.binary64 (UnpackedFloat.pack Format.binary64 _)
    rw [pack_finite, if_pos (by omega)]
    rfl

theorem Denotes.isFinite_pack_iff (h : Denotes s q u) :
    (⟨Float.Model.pack u⟩ : Float).isFinite = true ↔ q < 2 ^ (1024 : ℤ) := by
  rcases lt_or_ge q (2 ^ (1024 : ℤ)) with hq | hq
  · exact iff_of_true (h.is_pack hq).isFinite hq
  · change (Float.Model.pack u).unpack.isFinite = true ↔ _
    rw [h.unpack_pack_of_le hq]
    exact iff_of_false Bool.false_ne_true hq.not_gt

theorem canonical_subnormal (mantissa : BitVec 52) : Canonical mantissa.toNat (-1074) :=
  ⟨by omega, le_rfl, .inr rfl⟩

theorem toNat_exponent (hzero : exponent ≠ 0#11) (hinf : exponent ≠ -1#11) :
    1 ≤ exponent.toNat ∧ exponent.toNat ≤ 2046 := by
  have hzero' : exponent.toNat ≠ 0 := fun h => hzero (BitVec.eq_of_toNat_eq h)
  have hinf' : exponent.toNat ≠ 2047 := fun h => hinf (BitVec.eq_of_toNat_eq h)
  omega

theorem canonical_normal (mantissa : BitVec 52) (h : 1 ≤ exponent.toNat) :
    Canonical (2 ^ 52 + mantissa.toNat) (exponent.toNat - 1075) :=
  ⟨by omega, by omega, .inl (by omega)⟩

theorem exists_denotes (b : BitVec 64)
    (h : (UnpackedFloat.unpack Format.binary64 b).isFinite = true) :
    ∃ s q, Denotes s q (UnpackedFloat.unpack Format.binary64 b) ∧ q < 2 ^ (1024 : ℤ) := by
  by_cases hinf : @unpackExponent Format.binary64 b = -1#11
  · rw [isFinite_unpack_of_infinite hinf] at h
    exact absurd h Bool.false_ne_true
  by_cases hzero : @unpackExponent Format.binary64 b = 0#11
  · rcases (@unpackMantissa Format.binary64 b).toNat.eq_zero_or_pos with hm | hm
    · rw [unpack_of_zero hzero (BitVec.eq_of_toNat_eq hm)]
      exact ⟨_, _, .zero, two_zpow_pos 1024⟩
    · have hc := canonical_subnormal (@unpackMantissa Format.binary64 b)
      rw [unpack_of_subnormal hzero hm]
      exact ⟨_, _, .finite _ hc, hc.lt_of_exponent_le (by decide)⟩
  · have hexponent := toNat_exponent hzero hinf
    have hc := canonical_normal (@unpackMantissa Format.binary64 b) hexponent.1
    rw [unpack_of_normal hzero hinf]
    exact ⟨_, _, .finite _ hc, hc.lt_of_exponent_le (by omega)⟩

theorem exists_is {x : Float} (h : x.isFinite = true) : ∃ s q, Is x s q :=
  let ⟨s, q, hd, hq⟩ := exists_denotes _ h
  ⟨s, q, hd, hq⟩

end LoadReport.Binary64
