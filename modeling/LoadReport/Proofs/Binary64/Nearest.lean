import Mathlib.Algebra.Order.Floor.Ring
import Mathlib.Data.Int.Log
import Mathlib.Data.Rat.Floor
import Mathlib.Tactic.Linarith
import Mathlib.Tactic.Positivity

/-! # Rounding to the nearest float

A float is a multiple of a power of two, its last place, with at most 53 binary digits. A number is
rounded at its last place, to the even neighbour if it lies halfway. Rounding keeps the order of
numbers and leaves floats alone. The range is open upwards here; where it ends is a matter of
packing.
-/

namespace LoadReport.Binary64

variable {p q x y : ℚ} {k : ℤ}

/-- The integer nearest to `x`, the even one of two equally near. -/
def roundEven (x : ℚ) : ℤ :=
  if Int.fract x < 1 / 2 then ⌊x⌋
  else if 1 / 2 < Int.fract x then ⌊x⌋ + 1
  else ⌊x⌋ + ⌊x⌋ % 2

theorem floor_le_roundEven (x : ℚ) : ⌊x⌋ ≤ roundEven x := by
  unfold roundEven
  split_ifs <;> omega

theorem roundEven_le (x : ℚ) : roundEven x ≤ ⌊x⌋ + 1 := by
  unfold roundEven
  split_ifs <;> omega

@[simp]
theorem roundEven_intCast (n : ℤ) : roundEven n = n := by simp [roundEven]

theorem roundEven_mono (h : x ≤ y) : roundEven x ≤ roundEven y := by
  rcases (Int.floor_mono h).lt_or_eq with hlt | heq
  · exact (roundEven_le x).trans (hlt.trans_le (floor_le_roundEven y))
  · have hfract : Int.fract x ≤ Int.fract y := by
      rw [Int.fract, Int.fract, heq]
      exact sub_le_sub_right h _
    unfold roundEven
    rw [heq]
    split_ifs <;> first | omega | linarith

theorem roundEven_le_of_le {n : ℤ} (h : x ≤ n) : roundEven x ≤ n := by
  simpa using roundEven_mono h

theorem le_roundEven_of_le {n : ℤ} (h : n ≤ x) : n ≤ roundEven x := by
  simpa using roundEven_mono h

/-- The exponent of the last place of a positive number. -/
def lastPlace (q : ℚ) : ℤ := max (Int.log 2 q - 52) (-1074)

/-- The float nearest to a number that is not negative. -/
def nearest (q : ℚ) : ℚ := roundEven (q / 2 ^ lastPlace q) * 2 ^ lastPlace q

theorem two_zpow_pos (k : ℤ) : (0 : ℚ) < 2 ^ k := zpow_pos two_pos k

theorem lt_two_zpow_log (q : ℚ) : q < 2 ^ (Int.log 2 q + 1) := by
  exact_mod_cast Int.lt_zpow_succ_log_self one_lt_two q

theorem two_zpow_log_le (hq : 0 < q) : 2 ^ Int.log 2 q ≤ q := by
  exact_mod_cast Int.zpow_log_le_self one_lt_two hq

theorem le_log_iff (hq : 0 < q) : k ≤ Int.log 2 q ↔ 2 ^ k ≤ q := by
  exact_mod_cast (Int.zpow_le_iff_le_log one_lt_two hq).symm

theorem div_lastPlace_lt (q : ℚ) : q / 2 ^ lastPlace q < 2 ^ 53 := by
  rw [div_lt_iff₀ (two_zpow_pos _)]
  calc
    q < 2 ^ (Int.log 2 q + 1) := lt_two_zpow_log q
    _ ≤ 2 ^ (53 + lastPlace q) :=
      zpow_le_zpow_right₀ one_le_two (by unfold lastPlace; omega)
    _ = 2 ^ 53 * 2 ^ lastPlace q := zpow_add₀ two_ne_zero _ _

theorem le_div_lastPlace (hq : 0 < q) (h : lastPlace q ≠ -1074) :
    2 ^ 52 ≤ q / 2 ^ lastPlace q := by
  rw [le_div_iff₀ (two_zpow_pos _)]
  calc
    (2 : ℚ) ^ 52 * 2 ^ lastPlace q = 2 ^ (52 + lastPlace q) := (zpow_add₀ two_ne_zero _ _).symm
    _ = 2 ^ Int.log 2 q := by
      congr 1
      unfold lastPlace at h ⊢
      omega
    _ ≤ q := two_zpow_log_le hq

theorem roundEven_lastPlace_le (q : ℚ) : roundEven (q / 2 ^ lastPlace q) ≤ 2 ^ 53 :=
  roundEven_le_of_le (by exact_mod_cast (div_lastPlace_lt q).le)

theorem le_roundEven_lastPlace (hq : 0 < q) (h : lastPlace q ≠ -1074) :
    2 ^ 52 ≤ roundEven (q / 2 ^ lastPlace q) :=
  le_roundEven_of_le (by exact_mod_cast le_div_lastPlace hq h)

@[simp]
theorem nearest_zero : nearest 0 = 0 := by simp [nearest, roundEven]

theorem nearest_nonneg (hq : 0 ≤ q) : 0 ≤ nearest q := by
  have h : 0 ≤ roundEven (q / 2 ^ lastPlace q) :=
    le_roundEven_of_le (by exact_mod_cast div_nonneg hq (two_zpow_pos _).le)
  exact mul_nonneg (by exact_mod_cast h) (two_zpow_pos _).le

/-- Multiples of a power of two with at most 53 digits are floats. -/
theorem nearest_mul_two_zpow {n : ℕ} (hn : n < 2 ^ 53) (hk : -1074 ≤ k) :
    nearest (n * 2 ^ k) = n * 2 ^ k := by
  rcases n.eq_zero_or_pos with rfl | hpos
  · simp
  have hq : (0 : ℚ) < n * 2 ^ k := mul_pos (by exact_mod_cast hpos) (two_zpow_pos k)
  have hlast : lastPlace (n * 2 ^ k) ≤ k := by
    have hlt : ¬ (2 : ℚ) ^ (k + 53) ≤ n * 2 ^ k := by
      rw [zpow_add₀ two_ne_zero, mul_comm, mul_le_mul_iff_left₀ (two_zpow_pos k)]
      exact not_le.mpr (by exact_mod_cast hn)
    rw [← le_log_iff hq] at hlt
    unfold lastPlace
    omega
  obtain ⟨d, hd⟩ := Int.eq_ofNat_of_zero_le (sub_nonneg.mpr hlast)
  have hint : (n * 2 ^ k / 2 ^ lastPlace (n * 2 ^ k) : ℚ) = ((n * 2 ^ d : ℤ) : ℚ) := by
    rw [mul_div_assoc, ← zpow_sub₀ two_ne_zero, hd]
    push_cast
    rw [zpow_natCast]
  rw [nearest, hint, roundEven_intCast, ← hint, div_mul_cancel₀ _ (two_zpow_pos _).ne']

theorem nearest_two_zpow (hk : -1074 ≤ k) : nearest (2 ^ k) = 2 ^ k := by
  simpa using nearest_mul_two_zpow (n := 1) (by decide) hk

theorem nearest_natCast {n : ℕ} (hn : n < 2 ^ 53) : nearest n = n := by
  simpa using nearest_mul_two_zpow (k := 0) hn (by decide)

/-- Between numbers with different last places there is a power of two, which bounds what the two
are rounded to. -/
theorem nearest_mono (hp : 0 < p) (h : p ≤ q) : nearest p ≤ nearest q := by
  have hq := hp.trans_le h
  have hlog : Int.log 2 p ≤ Int.log 2 q := (le_log_iff hq).mpr ((two_zpow_log_le hp).trans h)
  rcases (show lastPlace p ≤ lastPlace q by unfold lastPlace; omega).eq_or_lt with heq | hlt
  · rw [nearest, nearest, heq]
    refine mul_le_mul_of_nonneg_right ?_ (two_zpow_pos _).le
    exact_mod_cast roundEven_mono (div_le_div_of_nonneg_right h (two_zpow_pos _).le)
  · obtain ⟨d, hd⟩ : ∃ d : ℕ, Int.log 2 q - lastPlace p = d :=
      Int.eq_ofNat_of_zero_le (by unfold lastPlace at hlt ⊢; omega)
    have hpl : p < 2 ^ Int.log 2 q :=
      not_le.mp fun hc => absurd ((le_log_iff hp).mpr hc) (by unfold lastPlace at hlt; omega)
    have hbelow : roundEven (p / 2 ^ lastPlace p) ≤ 2 ^ d := by
      refine roundEven_le_of_le ?_
      rw [div_le_iff₀ (two_zpow_pos _)]
      push_cast
      rw [← zpow_natCast, ← zpow_add₀ two_ne_zero, ← hd, sub_add_cancel]
      exact hpl.le
    have habove : 2 ^ 52 ≤ roundEven (q / 2 ^ lastPlace q) :=
      le_roundEven_lastPlace hq (by unfold lastPlace at hlt ⊢; omega)
    calc
      nearest p ≤ 2 ^ d * 2 ^ lastPlace p :=
        mul_le_mul_of_nonneg_right (by exact_mod_cast hbelow) (two_zpow_pos _).le
      _ = 2 ^ Int.log 2 q := by
        rw [← zpow_natCast, ← zpow_add₀ two_ne_zero, ← hd, sub_add_cancel]
      _ = 2 ^ 52 * 2 ^ lastPlace q := by
        rw [← zpow_natCast, ← zpow_add₀ two_ne_zero]
        congr 1
        unfold lastPlace at hlt ⊢
        omega
      _ ≤ nearest q :=
        mul_le_mul_of_nonneg_right (by exact_mod_cast habove) (two_zpow_pos _).le

theorem nearest_le_two_zpow (hq : 0 ≤ q) (hk : -1074 ≤ k) (h : q ≤ 2 ^ k) : nearest q ≤ 2 ^ k := by
  rcases hq.eq_or_lt with rfl | hpos
  · rw [nearest_zero]
    exact (two_zpow_pos k).le
  · exact nearest_two_zpow hk ▸ nearest_mono hpos h

theorem two_zpow_le_nearest (hk : -1074 ≤ k) (h : 2 ^ k ≤ q) : 2 ^ k ≤ nearest q := by
  simpa [nearest_two_zpow hk] using nearest_mono (two_zpow_pos k) h

theorem nearest_div_le (hp : 0 ≤ p) (hk : -1074 ≤ k) (h : p ≤ 2 ^ k) (hq : 1 ≤ q) :
    nearest (p / q) ≤ 2 ^ k :=
  nearest_le_two_zpow (div_nonneg hp (zero_le_one.trans hq)) hk ((div_le_self hp hq).trans h)

theorem nearest_mono_of_nonneg (hp : 0 ≤ p) (h : p ≤ q) : nearest p ≤ nearest q := by
  rcases hp.eq_or_lt with rfl | hpos
  · rw [nearest_zero]
    exact nearest_nonneg h
  · exact nearest_mono hpos h

/-- Half as much again as the largest power of two in the range is still in the range. -/
theorem nearest_lt_two_zpow (hq : 0 < q) (h : q ≤ 3 * 2 ^ (1022 : ℤ)) :
    nearest q < 2 ^ (1024 : ℤ) := by
  have hfloat : nearest (3 * 2 ^ (1022 : ℤ)) = 3 * 2 ^ (1022 : ℤ) := by
    exact_mod_cast nearest_mul_two_zpow (n := 3) (k := 1022) (by decide) (by decide)
  calc
    nearest q ≤ 3 * 2 ^ (1022 : ℤ) := hfloat ▸ nearest_mono hq h
    _ < 4 * 2 ^ (1022 : ℤ) := mul_lt_mul_of_pos_right (by norm_num) (two_zpow_pos _)
    _ = 2 ^ (1024 : ℤ) := by
      rw [show (4 : ℚ) = 2 ^ (2 : ℤ) by norm_num, ← zpow_add₀ two_ne_zero]
      rfl

/-! ### Whole parts

Rounding a quotient may only cross a whole number if the quotient is as close below it as half of
the last place, which a fraction with a small denominator is not.
-/

theorem roundEven_le_add_half (x : ℚ) : roundEven x ≤ x + 1 / 2 := by
  have hx := Int.floor_add_fract x
  have h0 := Int.fract_nonneg x
  unfold roundEven
  split_ifs with hlow hhigh
  · linarith
  · push_cast
    linarith
  · have hparity : (⌊x⌋ % 2 : ℤ) ≤ 1 := by omega
    have hparity' : ((⌊x⌋ % 2 : ℤ) : ℚ) ≤ 1 := by exact_mod_cast hparity
    push_cast
    linarith

theorem nearest_le_add (q : ℚ) : nearest q ≤ q + 2 ^ lastPlace q / 2 := by
  have hpos := two_zpow_pos (lastPlace q)
  calc
    nearest q ≤ (q / 2 ^ lastPlace q + 1 / 2) * 2 ^ lastPlace q :=
      mul_le_mul_of_nonneg_right (roundEven_le_add_half _) hpos.le
    _ = q + 2 ^ lastPlace q / 2 := by
      rw [add_mul, div_mul_cancel₀ q hpos.ne']
      ring

theorem nearest_natCast_of_le {n : ℕ} (hn : n ≤ 2 ^ 53) : nearest n = n := by
  rcases hn.lt_or_eq with hlt | rfl
  · exact nearest_natCast hlt
  · exact_mod_cast nearest_two_zpow (k := 53) (by decide)

theorem lastPlace_div_hundred_le {n : ℕ} (hn : 0 < n) (h : n ≤ 2 ^ 53) :
    lastPlace (n / 100) ≤ -6 := by
  have hpos : (0 : ℚ) < n / 100 := div_pos (by exact_mod_cast hn) (by norm_num)
  have hlt : (n / 100 : ℚ) < 2 ^ (47 : ℤ) := by
    have hcast : (n : ℚ) ≤ 2 ^ 53 := by exact_mod_cast h
    rw [div_lt_iff₀ (by norm_num)]
    exact hcast.trans_lt (by norm_num)
  have hlog : ¬ 47 ≤ Int.log 2 (n / 100 : ℚ) := fun hc =>
    absurd ((le_log_iff hpos).mp hc) hlt.not_ge
  unfold lastPlace
  omega

/-- Hundredths of whole numbers of at most 53 digits have their whole parts left by rounding. -/
theorem floor_nearest_div_hundred {n : ℕ} (h : n ≤ 2 ^ 53) :
    ⌊nearest (n / 100)⌋₊ = n / 100 := by
  rcases n.eq_zero_or_pos with rfl | hn
  · simp
  have hmod := Nat.div_add_mod n 100
  have hrest : n % 100 ≤ 99 := Nat.le_of_lt_succ (Nat.mod_lt n (by decide))
  rw [Nat.floor_eq_iff (nearest_nonneg (div_nonneg n.cast_nonneg (by norm_num)))]
  constructor
  · have hwhole : ((n / 100 : ℕ) : ℚ) ≤ n / 100 := by
      rw [le_div_iff₀ (by norm_num)]
      exact_mod_cast Nat.div_mul_le_self n 100
    rw [← nearest_natCast_of_le ((Nat.div_le_self n 100).trans h)]
    exact nearest_mono_of_nonneg (Nat.cast_nonneg _) hwhole
  · have hplace : (2 : ℚ) ^ lastPlace (n / 100) ≤ 2 ^ (-6 : ℤ) :=
      zpow_le_zpow_right₀ one_le_two (lastPlace_div_hundred_le hn h)
    have hbelow : (n / 100 : ℚ) ≤ (n / 100 : ℕ) + 99 / 100 := by
      have hcast : (n : ℚ) ≤ 100 * (n / 100 : ℕ) + 99 := by exact_mod_cast (by omega)
      linarith
    calc
      nearest (n / 100) ≤ n / 100 + 2 ^ lastPlace (n / 100) / 2 := nearest_le_add _
      _ ≤ (n / 100 : ℕ) + 99 / 100 + 2 ^ (-6 : ℤ) / 2 := by linarith
      _ < (n / 100 : ℕ) + 1 := by
        norm_num
        linarith

end LoadReport.Binary64
