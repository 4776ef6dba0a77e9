import LoadReport.Proofs.Binary64.Arithmetic

/-! # The order of floats

Canonical numbers are compared by their exponents first, then by their mantissas. That is the order
of the numbers, so floats compare as the numbers that they stand for with their signs.
-/

namespace LoadReport.Binary64

open Float.Model Float.Model.UnpackedFloat

variable {s t : Sign} {p q : ℚ} {u v : UnpackedFloat} {x y : Float} {m n : ℕ} {e f : ℤ}

def signed : Sign → ℚ → ℚ
  | .positive, q => q
  | .negative, q => -q

@[simp]
theorem signed_zero (s : Sign) : signed s 0 = 0 := by
  cases s <;> simp [signed]

@[simp]
theorem abs_signed (s : Sign) (q : ℚ) : |signed s q| = |q| := by
  cases s <;> simp [signed]

theorem signed_mul (s : Sign) (p q : ℚ) : signed s p * q = signed s (p * q) := by
  cases s <;> simp [signed]

theorem signed_div (s : Sign) (p q : ℚ) : signed s p / q = signed s (p / q) := by
  rw [div_eq_mul_inv, signed_mul, ← div_eq_mul_inv]

theorem Canonical.lt_of_exponent_lt (hc : Canonical m e) (hd : Canonical n f) (h : e < f) :
    (m * 2 ^ e : ℚ) < n * 2 ^ f := by
  have hm : (m : ℚ) < 2 ^ 53 := by exact_mod_cast hc.lt
  have hn : (2 : ℚ) ^ 52 ≤ n := by
    exact_mod_cast hd.full.resolve_right (hc.ge.trans_lt h).ne'
  calc
    (m * 2 ^ e : ℚ) < 2 ^ 53 * 2 ^ e := mul_lt_mul_of_pos_right hm (two_zpow_pos e)
    _ = 2 ^ 52 * 2 ^ (e + 1) := by
      rw [zpow_add_one₀ two_ne_zero]
      ring
    _ ≤ n * 2 ^ f := mul_le_mul hn (zpow_le_zpow_right₀ one_le_two h) (two_zpow_pos _).le
      (Nat.cast_nonneg n)

theorem Canonical.isLE_iff (hc : Canonical m e) (hd : Canonical n f) :
    ((compare e f).then (compare m n)).isLE ↔ (m * 2 ^ e : ℚ) ≤ n * 2 ^ f := by
  rcases lt_trichotomy e f with h | rfl | h
  · rw [Int.compare_eq_lt.mpr h]
    exact iff_of_true rfl (hc.lt_of_exponent_lt hd h).le
  · rw [Int.compare_eq_eq.mpr rfl, Ordering.then, Nat.isLE_compare,
      mul_le_mul_iff_left₀ (two_zpow_pos e), Nat.cast_le]
  · rw [Int.compare_eq_gt.mpr h]
    exact iff_of_false Bool.false_ne_true (hd.lt_of_exponent_lt hc h).not_ge

theorem finite_pos (hm : 0 < m) (e : ℤ) : (0 : ℚ) < m * 2 ^ e :=
  mul_pos (Nat.cast_pos.mpr hm) (two_zpow_pos e)

/-- Zeros come between the negative and the positive numbers, whatever sign they have. -/
theorem Denotes.le_iff (hu : Denotes s p u) (hv : Denotes t q v) :
    u.le v = true ↔ signed s p ≤ signed t q := by
  cases hu with
  | zero =>
    cases hv with
    | zero =>
      rw [signed_zero, signed_zero]
      exact iff_of_true rfl le_rfl
    | @finite n f hn hd =>
      have hq := finite_pos hn f
      rw [signed_zero]
      cases t with
      | positive => exact iff_of_true rfl hq.le
      | negative => exact iff_of_false Bool.false_ne_true (neg_neg_of_pos hq).not_ge
  | @finite m e hm hc =>
    have hp := finite_pos hm e
    cases hv with
    | zero =>
      rw [signed_zero]
      cases s with
      | positive => exact iff_of_false Bool.false_ne_true hp.not_ge
      | negative => exact iff_of_true rfl (neg_neg_of_pos hp).le
    | @finite n f hn hd =>
      have hq := finite_pos hn f
      cases s <;> cases t
      case positive.positive => exact hc.isLE_iff hd
      case positive.negative =>
        exact iff_of_false Bool.false_ne_true ((neg_neg_of_pos hq).trans hp).not_ge
      case negative.positive => exact iff_of_true rfl ((neg_neg_of_pos hp).trans hq).le
      case negative.negative =>
        have hswap : ((compare e f).then (compare m n)).swap =
            (compare f e).then (compare n m) := by
          rw [Ordering.swap_then, Int.compare_swap, Nat.compare_swap]
        rw [signed, signed, neg_le_neg_iff, ← hd.isLE_iff hc, ← hswap]
        rfl

theorem Is.le_iff (hx : Is x s p) (hy : Is y t q) : x ≤ y ↔ signed s p ≤ signed t q := by
  rw [← hx.denotes.le_iff hy.denotes]
  exact decide_eq_true_iff

/-! ### Rounding on both sides of zero -/

/-- The float nearest to a number of either sign. -/
def rounded (q : ℚ) : ℚ := if 0 ≤ q then nearest q else -nearest (-q)

theorem rounded_mono (h : p ≤ q) : rounded p ≤ rounded q := by
  unfold rounded
  split_ifs with hp hq hq
  · exact nearest_mono_of_nonneg hp h
  · exact absurd (hp.trans h) hq
  · exact (neg_nonpos.mpr (nearest_nonneg (by linarith))).trans (nearest_nonneg hq)
  · exact neg_le_neg (nearest_mono_of_nonneg (by linarith) (neg_le_neg h))

theorem rounded_signed (s : Sign) (hq : 0 ≤ q) : rounded (signed s q) = signed s (nearest q) := by
  cases s with
  | positive => exact if_pos hq
  | negative =>
    rcases hq.eq_or_lt with rfl | hpos
    · simp [rounded]
    · rw [rounded, signed, signed, if_neg (neg_neg_of_pos hpos).not_ge, neg_neg]

end LoadReport.Binary64
