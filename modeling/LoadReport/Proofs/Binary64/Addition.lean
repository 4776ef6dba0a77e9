import LoadReport.Proofs.Binary64.Value

/-! # Sums and halves of floats

A sum of two numbers is the float nearest to the exact sum, unless that is beyond the range. The
sign of a sum that is zero depends on the signs of its parts. Halving never leaves the range.
-/

namespace LoadReport.Binary64

open Float.Model Float.Model.UnpackedFloat

variable {s t : Sign} {p q : ℚ} {u v : UnpackedFloat} {x y : Float} {m n : ℕ} {e f : ℤ}

def signOf (zero : Sign) (q : ℚ) : Sign :=
  if 0 < q then .positive else if q < 0 then .negative else zero

/-- The sign of a sum `q`. Zero is negative only as a sum of negative parts. -/
def sumSign (s t : Sign) (q : ℚ) : Sign := signOf (if s == t then s else .positive) q

theorem signOf_of_pos (s : Sign) (hq : 0 < q) : signOf s q = .positive := if_pos hq

theorem signOf_of_neg (s : Sign) (hq : q < 0) : signOf s q = .negative :=
  (if_neg hq.not_gt).trans (if_pos hq)

theorem signOf_signed (t : Sign) (hq : 0 < q) : signOf t (signed s q) = s := by
  cases s with
  | positive => exact signOf_of_pos t hq
  | negative => exact signOf_of_neg t (neg_neg_of_pos hq)

theorem signed_signOf (s : Sign) (q : ℚ) : signed (signOf s q) (nearest |q|) = rounded q := by
  unfold rounded
  rcases lt_trichotomy q 0 with h | rfl | h
  · rw [signOf_of_neg s h, if_neg h.not_ge, abs_of_neg h, signed]
  · simp
  · rw [signOf_of_pos s h, if_pos h.le, abs_of_pos h, signed]

theorem signed_apply (s : Sign) (n : ℕ) : ((s.apply n : ℤ) : ℚ) = signed s n := by
  cases s <;> simp [Sign.apply, signed]

theorem sumSign_positive (t : Sign) (hq : 0 ≤ q) : sumSign .positive t q = .positive := by
  rcases hq.eq_or_lt with rfl | hpos
  · cases t <;> rfl
  · exact signOf_of_pos _ hpos

theorem sumSign_negative (hq : q ≤ 0) : sumSign .negative .negative q = .negative := by
  rcases hq.eq_or_lt with rfl | hneg
  · rfl
  · exact signOf_of_neg _ hneg

/-- Parts other than zero have the sum 0 only if their signs differ. -/
theorem sumSign_eq (hp : 0 < p) (hq : 0 < q) :
    sumSign s t (signed s p + signed t q) = signOf .positive (signed s p + signed t q) := by
  cases s <;> cases t
  case negative.negative =>
    have hneg : signed .negative p + signed .negative q < 0 :=
      add_neg (neg_neg_of_pos hp) (neg_neg_of_pos hq)
    rw [sumSign_negative hneg.le, signOf_of_neg _ hneg]
  all_goals rfl

/-! ### Unpacked floats -/

theorem denotes_normalize (z e : ℤ) (s : Sign) :
    Denotes (signOf s (z * 2 ^ e)) (nearest |(z * 2 ^ e : ℚ)|)
      (UnpackedFloat.normalize Format.binary64 z e s) := by
  unfold UnpackedFloat.normalize
  have he := two_zpow_pos e
  rcases lt_trichotomy z 0 with hz | rfl | hz
  · obtain ⟨k, rfl⟩ : ∃ k : ℕ, z = -k := ⟨z.natAbs, by omega⟩
    have hq : ((-k : ℤ) * 2 ^ e : ℚ) < 0 := mul_neg_of_neg_of_pos (by exact_mod_cast hz) he
    have habs : |((-k : ℤ) * 2 ^ e : ℚ)| = k * 2 ^ e := by
      rw [abs_of_neg hq]
      push_cast
      ring
    rw [Int.compare_eq_lt.mpr hz, signOf_of_neg s hq, habs]
    simpa using denotes_round .negative (m := k) (by omega) e
  · rw [Int.compare_eq_eq.mpr rfl, Int.cast_zero, zero_mul, abs_zero, nearest_zero]
    exact .zero
  · obtain ⟨k, rfl⟩ : ∃ k : ℕ, z = k := ⟨z.natAbs, by omega⟩
    have hq : (0 : ℚ) < (k : ℤ) * 2 ^ e := mul_pos (by exact_mod_cast hz) he
    rw [Int.compare_eq_gt.mpr hz, signOf_of_pos s hq, abs_of_pos hq]
    simpa using denotes_round .positive (m := k) (by omega) e

theorem decreaseExponent_mul (m : ℕ) (h : f ≤ e) :
    ((decreaseExponent m e f).1 * 2 ^ f : ℚ) = m * 2 ^ e := by
  obtain ⟨k, rfl⟩ : ∃ k : ℕ, e = f + k := ⟨(e - f).toNat, by omega⟩
  have hshift : (decreaseExponent m (f + k) f).1 = m * 2 ^ k := by
    unfold decreaseExponent
    rw [show (f + k - f : ℤ).toNat = k by omega]
    exact Nat.shiftLeft_eq m k
  rw [hshift, zpow_add₀ two_ne_zero, zpow_natCast]
  push_cast
  ring

theorem Denotes.signed_self (h : Denotes s q u) (hq : 0 < q) (t : Sign) :
    Denotes (signOf t (signed s q)) (nearest |signed s q|) u := by
  rw [signOf_signed t hq, abs_signed, abs_of_pos hq, h.nearest_eq]
  exact h

/-- Zero leaves the other part as it is. Otherwise both parts are brought to the smaller exponent,
where their sum is exact, and the sum is rounded. -/
theorem Denotes.add (hu : Denotes s p u) (hv : Denotes t q v) :
    Denotes (sumSign s t (signed s p + signed t q)) (nearest |signed s p + signed t q|)
      (UnpackedFloat.add Format.binary64 u v) := by
  cases hu with
  | zero =>
    rw [signed_zero, zero_add]
    cases hv with
    | zero =>
      rw [signed_zero, abs_zero, nearest_zero]
      cases s <;> cases t <;> exact .zero
    | finite hn hd => exact (Denotes.finite hn hd).signed_self (finite_pos hn _) _
  | @finite m e hm hc =>
    cases hv with
    | zero =>
      rw [signed_zero, add_zero]
      exact (Denotes.finite hm hc).signed_self (finite_pos hm e) _
    | @finite n f hn hd =>
      have hvalue : signed s (m * 2 ^ e) + signed t (n * 2 ^ f) =
          ((s.apply (decreaseExponent m e (min e f)).1 +
            t.apply (decreaseExponent n f (min e f)).1 : ℤ) : ℚ) * 2 ^ min e f := by
        rw [Int.cast_add, signed_apply, signed_apply, add_mul, signed_mul, signed_mul,
          decreaseExponent_mul _ (min_le_left _ _), decreaseExponent_mul _ (min_le_right _ _)]
      rw [sumSign_eq (finite_pos hm e) (finite_pos hn f), hvalue]
      exact denotes_normalize _ _ _

/-! ### Floats -/

theorem isFinite_add_iff (hx : x.isFinite = true) (hy : y.isFinite = true) :
    (x + y).isFinite = true ↔ nearest |value x + value y| < 2 ^ (1024 : ℤ) :=
  ((denotes_unpack hx).add (denotes_unpack hy)).isFinite_pack_iff

theorem is_add (hx : x.isFinite = true) (hy : y.isFinite = true) (h : (x + y).isFinite = true) :
    Is (x + y) (sumSign (sign x) (sign y) (value x + value y)) (nearest |value x + value y|) :=
  ((denotes_unpack hx).add (denotes_unpack hy)).is_pack ((isFinite_add_iff hx hy).mp h)

theorem value_add (hx : x.isFinite = true) (hy : y.isFinite = true)
    (h : (x + y).isFinite = true) : value (x + y) = rounded (value x + value y) := by
  rw [(is_add hx hy h).value_eq, sumSign, signed_signOf]

theorem is_half (hx : x.isFinite = true) :
    Is (x / 2) (sign x) (nearest (magnitude x / 2)) := by
  have hnumber := is_of_isFinite hx
  have htwo : Is (2 : Float) .positive (2 : ℕ) := is_ofNat_of_small (by decide)
  have hsign : sign x / .positive = sign x := by cases sign x <;> rfl
  have hle : nearest (magnitude x / (2 : ℕ)) ≤ magnitude x := by
    calc
      nearest (magnitude x / (2 : ℕ)) ≤ nearest (magnitude x) :=
        nearest_mono_of_nonneg (div_nonneg (magnitude_nonneg x) (Nat.cast_nonneg 2))
          (div_le_self (magnitude_nonneg x) (by norm_num))
      _ = magnitude x := nearest_magnitude x
  have hdiv := hnumber.div htwo (by norm_num) (hle.trans_lt hnumber.lt)
  rw [hsign] at hdiv
  exact_mod_cast hdiv

theorem value_half (hx : x.isFinite = true) : value (x / 2) = rounded (value x / 2) := by
  have hnonneg := div_nonneg (magnitude_nonneg x) zero_le_two
  rw [(is_half hx).value_eq, ← rounded_signed _ hnonneg, value, signed_div]

/-- Half of the sum of two floats lies between them, if the sum is in the range. -/
theorem value_half_add (hx : x.isFinite = true) (hy : y.isFinite = true)
    (hle : value x ≤ value y) (h : (x + y).isFinite = true) :
    value x ≤ value ((x + y) / 2) ∧ value ((x + y) / 2) ≤ value y := by
  have hhalf : value ((x + y) / 2) = rounded (rounded (value x + value y) / 2) := by
    rw [value_half h, value_add hx hy h]
  -- Twice a float is a float, so the rounded sum does not fall short of it.
  have hlow : value x * 2 ≤ rounded (value x + value y) := by
    rw [← rounded_value_mul_two]
    exact rounded_mono (by linarith)
  have hhigh : rounded (value x + value y) ≤ value y * 2 := by
    rw [← rounded_value_mul_two]
    exact rounded_mono (by linarith)
  constructor
  · calc
      value x = rounded (value x) := (rounded_value x).symm
      _ ≤ rounded (rounded (value x + value y) / 2) := rounded_mono (by linarith)
      _ = value ((x + y) / 2) := hhalf.symm
  · calc
      value ((x + y) / 2) = rounded (rounded (value x + value y) / 2) := hhalf
      _ ≤ rounded (value y) := rounded_mono (by linarith)
      _ = value y := rounded_value y

end LoadReport.Binary64
