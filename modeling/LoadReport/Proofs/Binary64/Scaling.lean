import LoadReport.Proofs.Binary64.Value
import LoadReport.Proofs.Binary64.WholePart

/-! # Scaling floats

Multiplying by a float above zero and dividing by a number above zero keeps what is not above zero
there, and keeps the order of the rest, whether the product overflows or not. Only an infinite
factor and zero make NaN, which counts as nothing just as zero does.
-/

namespace LoadReport.Binary64

open Float.Model Float.Model.UnpackedFloat

variable {s : Sign} {r : ℚ} {u v w : UnpackedFloat} {x p q d : Float} {m n : ℕ}

theorem Low.mul (hw : High w) (h : Low u) : Low (UnpackedFloat.mul Format.binary64 w u) := by
  cases hw with
  | infinity =>
    cases h with
    | nan => exact .nan
    | infinity => exact .infinity
    | zero s => exact .nan
    | negative h =>
      cases h with
      | zero => exact .nan
      | finite => exact .infinity
  | number hw hr =>
    cases h with
    | negative h => exact .negative (hw.mul h)
    | _ =>
      cases hw with
      | zero => exact absurd hr (lt_irrefl _)
      | finite => constructor

theorem Low.div (hw : Denotes .positive r w) (hr : 0 < r) (h : Low u) :
    Low (UnpackedFloat.div Format.binary64 u w) := by
  cases h with
  | negative h => exact .negative (h.div hw hr)
  | _ =>
    cases hw with
    | zero => exact absurd hr (lt_irrefl _)
    | finite => constructor

theorem PositiveLE.mul (hw : High w) (h : PositiveLE u v) :
    PositiveLE (UnpackedFloat.mul Format.binary64 w u) (UnpackedFloat.mul Format.binary64 w v) := by
  cases h with
  | low h => exact .low (h.mul hw)
  | infinity =>
    cases hw with
    | infinity => exact .infinity _
    | number hw hr =>
      cases hw with
      | zero => exact absurd hr (lt_irrefl _)
      | finite => exact .infinity _
  | number hu hv h =>
    cases hw with
    | infinity =>
      cases hu with
      | zero => exact .low .nan
      | finite hm hc =>
        cases hv with
        | zero => exact absurd h (finite_pos hm _).not_ge
        | finite => exact .infinity _
    | number hw hr =>
      refine .number (hw.mul hu) (hw.mul hv) ?_
      exact nearest_mono_of_nonneg (mul_nonneg hr.le hu.nonneg) (mul_le_mul_of_nonneg_left h hr.le)

theorem PositiveLE.div (hw : Denotes .positive r w) (hr : 0 < r) (h : PositiveLE u v) :
    PositiveLE (UnpackedFloat.div Format.binary64 u w) (UnpackedFloat.div Format.binary64 v w) := by
  cases h with
  | low h => exact .low (h.div hw hr)
  | infinity =>
    cases hw with
    | zero => exact absurd hr (lt_irrefl _)
    | finite => exact .infinity _
  | number hu hv h =>
    refine .number (hu.div hw hr) (hv.div hw hr) ?_
    exact nearest_mono_of_nonneg (div_nonneg hu.nonneg hr.le) (div_le_div_of_nonneg_right h hr.le)

section Float

variable (hx : High x.toModel.unpack) (hd : Is d .positive r) (hr : 0 < r)
include hx hd hr

theorem toUInt64_scale_of_low (h : Low p.toModel.unpack) : (x * p / d).toUInt64 = 0 :=
  ((h.mul hx).pack.div hd.denotes hr).pack.toUInt64

theorem toUInt64_scale_mono (h : PositiveLE p.toModel.unpack q.toModel.unpack) :
    (x * p / d).toUInt64.toNat ≤ (x * q / d).toUInt64.toNat :=
  ((h.mul hx).pack.div hd.denotes hr).pack.toUInt64

end Float

theorem is_ofNat_of_le (h : n ≤ 2 ^ 53) : Is (Float.ofNat n) .positive n := by
  have hnear := is_ofNat_of_lt (h.trans_lt (by decide))
  rwa [nearest_natCast_of_le h] at hnear

theorem is_hundred : Is (100 : Float) .positive (100 : ℕ) := is_ofNat_of_small (by decide)

/-- The product is exact, and the rounding of the quotient does not reach a whole number. -/
theorem toUInt64_hundredths (hm : m ≤ 2 ^ 53) (hn : n ≤ 2 ^ 53) (h : m * n ≤ 2 ^ 53) :
    (Float.ofNat m * Float.ofNat n / 100).toUInt64.toNat = m * n / 100 := by
  have hproduct : nearest (m * n) = (m * n : ℕ) := by
    rw [← nearest_natCast_of_le h, Nat.cast_mul]
  have hrange : ((m * n : ℕ) : ℚ) ≤ 2 ^ (53 : ℤ) := by exact_mod_cast h
  have hmul : Is (Float.ofNat m * Float.ofNat n) .positive (m * n : ℕ) := by
    rw [← hproduct]
    refine (is_ofNat_of_le hm).mul (is_ofNat_of_le hn) ?_
    exact hproduct ▸ hrange.trans_lt (two_zpow_lt_range (by decide))
  have hle : nearest ((m * n : ℕ) / (100 : ℕ)) ≤ 2 ^ (53 : ℤ) :=
    nearest_div_le (Nat.cast_nonneg _) (by decide) hrange (by norm_num)
  have hdiv := hmul.div is_hundred (by norm_num) (hle.trans_lt (two_zpow_lt_range (by decide)))
  have hfloor : ⌊nearest ((m * n : ℕ) / (100 : ℕ))⌋₊ = m * n / 100 := by
    exact_mod_cast floor_nearest_div_hundred h
  have hword := Is.toNat_toUInt64 hdiv
  rw [hword, hfloor]
  omega

/-! ### The range of quotients -/

theorem isFinite_pack_div (hu : u.isFinite = false) (hv : High v) :
    (Float.Model.pack (UnpackedFloat.div Format.binary64 u v)).unpack.isFinite = false := by
  cases u with
  | zero s => cases hu
  | finite s m e hm => cases hu
  | notANumber =>
    have hnan : UnpackedFloat.div Format.binary64 .notANumber v = .notANumber := by cases v <;> rfl
    rw [hnan]
    decide
  | infinity s =>
    cases hv with
    | infinity => cases s <;> decide
    | number hv hq =>
      cases hv with
      | zero => exact absurd hq (lt_irrefl _)
      | @finite n f hn hd =>
        obtain ⟨t, ht⟩ : ∃ t, UnpackedFloat.div Format.binary64 (.infinity s)
          (.finite .positive n f hn) = .infinity t := ⟨_, rfl⟩
        rw [ht, unpack_pack_infinity]
        rfl

theorem isFinite_pack_div_infinity (hu : u.isFinite = true) :
    (Float.Model.pack (UnpackedFloat.div Format.binary64 u (.infinity s))).unpack.isFinite =
      true := by
  obtain ⟨t, ht⟩ : ∃ t, UnpackedFloat.div Format.binary64 u (.infinity s) = .zero t := by
    cases u with
    | notANumber => cases hu
    | infinity t => cases hu
    | _ => exact ⟨_, rfl⟩
  rw [ht, unpack_pack_zero]
  rfl

/-- A quotient by a natural number is in the range exactly if the dividend is. -/
theorem isFinite_div_ofNat_iff (hn : 0 < n) :
    (x / Float.ofNat n).isFinite = true ↔ x.isFinite = true := by
  by_cases h : x.isFinite = true
  · refine iff_of_true ?_ h
    rcases unpack_ofNat hn with hinf | hd
    · change (Float.Model.pack (UnpackedFloat.div Format.binary64 x.toModel.unpack
        (Float.ofNat n).toModel.unpack)).unpack.isFinite = true
      rw [hinf]
      exact isFinite_pack_div_infinity h
    · have hx := is_of_isFinite h
      have hone := one_le_nearest_natCast hn
      refine (hx.div hd (zero_lt_one.trans_le hone) ?_).isFinite
      calc
        nearest (magnitude x / nearest n) ≤ nearest (magnitude x) :=
          nearest_mono_of_nonneg (div_nonneg (magnitude_nonneg x) (zero_le_one.trans hone))
            (div_le_self (magnitude_nonneg x) hone)
        _ = magnitude x := nearest_magnitude x
        _ < 2 ^ (1024 : ℤ) := hx.lt
  · refine iff_of_false (fun hdiv => ?_) h
    have hx : x.toModel.unpack.isFinite = false := Bool.not_eq_true _ ▸ h
    exact Bool.false_ne_true ((isFinite_pack_div hx (high_ofNat hn)).symm.trans hdiv)

end LoadReport.Binary64
