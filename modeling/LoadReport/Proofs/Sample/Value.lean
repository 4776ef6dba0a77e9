import LoadReport.Proofs.Binary64.Value
import LoadReport.Proofs.Sample.Order

/-! # Samples by value

Samples are sorted by their bits. That is by the numbers that they stand for, and the two zeros by
their signs, as if infinities and NaN stood for numbers at the upper end of the range.
-/

namespace LoadReport.Sample

open Binary64

variable {x y : Float}

theorem rank_of_positive (h : sign x = .positive) :
    (rank x).toNat = 2 ^ 63 + x.toBits.toNat % 2 ^ 63 := by
  have htop : (0x8000000000000000 : UInt64).toNat = 2 ^ 63 := rfl
  simp only [sign, isNegative, UInt64.le_iff_toNat_le, htop, decide_eq_true_eq] at h
  split_ifs at h
  rw [toNat_rank, if_pos (by omega)]
  omega

theorem rank_of_negative (h : sign x = .negative) :
    (rank x).toNat = 2 ^ 63 - 1 - x.toBits.toNat % 2 ^ 63 := by
  have htop : (0x8000000000000000 : UInt64).toNat = 2 ^ 63 := rfl
  have hbits := x.toBits.toNat_lt
  simp only [sign, isNegative, UInt64.le_iff_toNat_le, htop, decide_eq_true_eq] at h
  split_ifs at h
  rw [toNat_rank, if_neg (by omega)]
  omega

theorem value_nonneg (h : sign x = .positive) : 0 ≤ value x := by
  rw [value, h]
  exact magnitude_nonneg x

theorem value_nonpos (h : sign x = .negative) : value x ≤ 0 := by
  rw [value, h]
  exact neg_nonpos.mpr (magnitude_nonneg x)

theorem le_iff_value : le x y = true ↔
    value x < value y ∨ value x = value y ∧ (sign x = .negative ∨ sign y = .positive) := by
  rw [le_iff, UInt64.le_iff_toNat_le]
  cases hs : sign x <;> cases ht : sign y
  case negative.negative =>
    rw [rank_of_negative hs, rank_of_negative ht, value, value, hs, ht, signed, signed,
      neg_lt_neg_iff, neg_inj, and_iff_left (.inl rfl), eq_comm, ← le_iff_lt_or_eq,
      magnitude_le_iff]
    omega
  case negative.positive =>
    rw [rank_of_negative hs, rank_of_positive ht, and_iff_left (.inl rfl), ← le_iff_lt_or_eq]
    exact iff_of_true (by omega) ((value_nonpos hs).trans (value_nonneg ht))
  case positive.negative =>
    rw [rank_of_positive hs, rank_of_negative ht]
    refine iff_of_false (by omega) ?_
    rintro (h | ⟨-, h | h⟩)
    · exact absurd ((value_nonpos ht).trans (value_nonneg hs)) h.not_ge
    · cases h
    · cases h
  case positive.positive =>
    rw [rank_of_positive hs, rank_of_positive ht, value, value, hs, ht, signed, signed,
      and_iff_left (.inr rfl), ← le_iff_lt_or_eq, magnitude_le_iff]
    omega

theorem value_le_of_le (h : le x y = true) : value x ≤ value y := by
  rcases le_iff_value.mp h with h | ⟨h, -⟩
  · exact h.le
  · exact h.le

theorem sign_of_le (h : le x y = true) (hy : sign y = .negative) : sign x = .negative := by
  cases hx : sign x with
  | negative => rfl
  | positive =>
    rcases le_iff_value.mp h with hlt | ⟨-, hs | hs⟩
    · exact absurd ((value_nonpos hy).trans (value_nonneg hx)) hlt.not_ge
    · exact hx.symm.trans hs
    · cases hy.symm.trans hs

/-- What comes between finite samples is finite. -/
theorem isFinite_of_le {z : Float} (hx : x.isFinite = true) (hz : z.isFinite = true)
    (hxy : le x y = true) (hyz : le y z = true) : y.isFinite = true := by
  rw [isFinite_iff, ← abs_value] at *
  rw [abs_lt] at *
  exact ⟨hx.1.trans_le (value_le_of_le hxy), (value_le_of_le hyz).trans_lt hz.2⟩

end LoadReport.Sample
