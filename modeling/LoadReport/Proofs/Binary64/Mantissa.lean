import LoadReport.Proofs.Binary64.Nearest

/-! # Rounding a mantissa

The arithmetic of floats leaves an exact result as a mantissa with two more bits, which tell where
between two neighbours it lies, and shifts it to its last place. What comes out is the nearest float
of the exact result, with a full mantissa unless it is at the lower end of the range.
-/

namespace LoadReport.Binary64

open Float.Model Float.Model.UnpackedFloat

variable {em : ExtendedMantissa} {x q : ℚ} {s : Sign} {m n : ℕ} {e : ℤ} {accuracy : Accuracy}

/-- A mantissa with its two bits tells what it takes to round `x`. -/
structure Tells (em : ExtendedMantissa) (x : ℚ) : Prop where
  mantissa : (em.mantissa : ℤ) = ⌊x⌋
  roundBit : em.roundBit = true ↔ 1 / 2 ≤ Int.fract x
  stickyBit : em.stickyBit = true ↔ Int.fract x ≠ 0 ∧ Int.fract x ≠ 1 / 2

theorem Tells.roundedMantissa (h : Tells em x) : (em.roundedMantissa : ℤ) = roundEven x := by
  obtain ⟨m, round, sticky⟩ := em
  obtain ⟨hm, hround, hsticky⟩ := h
  simp only at hm hround hsticky
  have h0 := Int.fract_nonneg x
  unfold roundEven
  rw [← hm]
  cases round <;> cases sticky <;>
    simp only [ExtendedMantissa.roundedMantissa, ExtendedMantissa.accuracy,
      Accuracy.roundToNearestEven] <;>
    grind

theorem Tells.shiftRightOne (h : Tells em x) : Tells em.shiftRightOne (x / 2) := by
  obtain ⟨m, round, sticky⟩ := em
  obtain ⟨hm, hround, hsticky⟩ := h
  simp only at hm hround hsticky
  have h0 := Int.fract_nonneg x
  have h1 := Int.fract_lt_one x
  obtain ⟨k, b, hb, rfl⟩ : ∃ k b, (b = 0 ∨ b = 1) ∧ m = 2 * k + b :=
    ⟨m / 2, m % 2, by omega, (Nat.div_add_mod m 2).symm⟩
  have hdiv : (2 * k + b) / 2 = k := by omega
  have hmod : (2 * k + b) % 2 = b := by omega
  have hhalf : x / 2 = k + (b + Int.fract x) / 2 := by
    have hx : (2 * k + b : ℕ) + Int.fract x = x := by
      rw [← Int.cast_natCast, hm, Int.floor_add_fract]
    push_cast at hx
    linarith
  have hfloor : ⌊x / 2⌋ = k := by
    rw [Int.floor_eq_iff, hhalf]
    rcases hb with rfl | rfl <;> push_cast <;> constructor <;> linarith
  have hfract : Int.fract (x / 2) = (b + Int.fract x) / 2 := by
    rw [Int.fract, hfloor, Int.cast_natCast, hhalf, add_sub_cancel_left]
  simp only [ExtendedMantissa.shiftRightOne, hdiv, hmod]
  constructor
  case mantissa => exact hfloor.symm
  case roundBit =>
    rw [hfract]
    rcases hb with rfl | rfl <;> simp <;> linarith
  case stickyBit =>
    rw [hfract, Bool.or_eq_true, hround, hsticky]
    rcases hb with rfl | rfl <;> push_cast <;> grind

theorem Tells.shiftRight (h : Tells em x) (n : ℕ) : Tells (em >>> n) (x / 2 ^ n) := by
  change Tells (n.repeat ExtendedMantissa.shiftRightOne em) _
  induction n with
  | zero => simpa [Nat.repeat] using h
  | succ n ih =>
    rw [pow_succ, ← div_div]
    exact ih.shiftRightOne

theorem mantissa_ofMantissaAndAccuracy (m : ℕ) (accuracy : Accuracy) :
    (ExtendedMantissa.ofMantissaAndAccuracy m accuracy).mantissa = m := by
  rcases accuracy with _ | (_ | _ | _) <;> rfl

theorem tells_exact (m : ℕ) : Tells (.ofMantissaAndAccuracy m .exact) m := by
  constructor <;> simp [ExtendedMantissa.ofMantissaAndAccuracy]

/-- A quotient with what its remainder tells. -/
theorem tells_div (a : ℕ) {b : ℕ} (hb : 0 < b) :
    Tells (.ofMantissaAndAccuracy (a / b) (accuracyOfFraction (a % b) b)) (a / b : ℚ) := by
  have hbq : (0 : ℚ) < b := by exact_mod_cast hb
  have hfract : Int.fract (a / b : ℚ) = (a % b : ℕ) / b := Int.fract_div_natCast_eq_div_natCast_mod
  have hhalf : (1 / 2 : ℚ) ≤ Int.fract (a / b : ℚ) ↔ b ≤ 2 * (a % b) := by
    rw [hfract, div_le_div_iff₀ two_pos hbq, one_mul, mul_comm]
    exact_mod_cast Iff.rfl
  have htie : Int.fract (a / b : ℚ) = 1 / 2 ↔ 2 * (a % b) = b := by
    rw [hfract, div_eq_div_iff hbq.ne' two_ne_zero, one_mul, mul_comm]
    exact_mod_cast Iff.rfl
  have hzero : Int.fract (a / b : ℚ) = 0 ↔ a % b = 0 := by
    rw [hfract, div_eq_zero_iff, or_iff_left hbq.ne', Nat.cast_eq_zero]
  constructor
  case mantissa =>
    rw [mantissa_ofMantissaAndAccuracy]
    exact (Rat.floor_natCast_div_natCast a b).symm
  case roundBit =>
    rw [hhalf, accuracyOfFraction]
    split_ifs with hr
    · simp [ExtendedMantissa.ofMantissaAndAccuracy, hr, hb.ne']
    · cases hc : compare (2 * (a % b)) b <;>
        simp only [ExtendedMantissa.ofMantissaAndAccuracy] <;> grind
  case stickyBit =>
    rw [ne_eq, ne_eq, hzero, htie, accuracyOfFraction]
    split_ifs with hr
    · simp [ExtendedMantissa.ofMantissaAndAccuracy, hr]
    · cases hc : compare (2 * (a % b)) b <;>
        simp only [ExtendedMantissa.ofMantissaAndAccuracy] <;> grind

theorem targetExponent_eq (m : ℕ) (e : ℤ) :
    Format.binary64.targetExponent (totalExponent m e) = max (m.log2 + e - 52) (-1074) := by
  have hmin : Format.binary64.minExponent = -1074 := rfl
  have hbits : Format.binary64.mantissaBits = 53 := rfl
  rw [Format.targetExponent, totalExponent, hmin, hbits]
  omega

theorem lastPlace_eq (hm : 0 < m) (hle : m ≤ x) (hlt : x < m + 1) :
    lastPlace (x * 2 ^ e) = max (m.log2 + e - 52) (-1074) := by
  have hpos : 0 < x * 2 ^ e :=
    mul_pos (lt_of_lt_of_le (by exact_mod_cast hm) hle) (two_zpow_pos e)
  have hlow : (2 : ℚ) ^ m.log2 ≤ m := by exact_mod_cast Nat.log2_self_le hm.ne'
  have hhigh : (m + 1 : ℚ) ≤ 2 ^ (m.log2 + 1) := by exact_mod_cast Nat.lt_log2_self
  have hge : m.log2 + e ≤ Int.log 2 (x * 2 ^ e) := by
    rw [le_log_iff hpos, zpow_add₀ two_ne_zero, zpow_natCast]
    exact mul_le_mul_of_nonneg_right (hlow.trans hle) (two_zpow_pos e).le
  have hnot : ¬ (m.log2 + 1 : ℕ) + e ≤ Int.log 2 (x * 2 ^ e) := by
    rw [le_log_iff hpos, zpow_add₀ two_ne_zero, zpow_natCast, not_le]
    exact mul_lt_mul_of_pos_right (hlt.trans_le hhigh) (two_zpow_pos e)
  unfold lastPlace
  omega

/-- The last place is found from the mantissa alone, if that is not too coarse. -/
theorem targetExponent_eq_lastPlace (hx : 0 < x) (hm : (m : ℤ) = ⌊x⌋) (hq : q = x * 2 ^ e)
    (he : e ≤ lastPlace q) : Format.binary64.targetExponent (totalExponent m e) = lastPlace q := by
  have hpos : 0 < q := hq ▸ mul_pos hx (two_zpow_pos e)
  have hle : (m : ℚ) ≤ x := by
    rw [← Int.cast_natCast, hm]
    exact Int.floor_le x
  have hlt : x < m + 1 := by
    rw [← Int.cast_natCast, hm]
    exact Int.lt_floor_add_one x
  rw [targetExponent_eq]
  rcases m.eq_zero_or_pos with rfl | hmpos
  · have hlog : ¬ e ≤ Int.log 2 q := by
      rw [le_log_iff hpos, hq, not_le, ← lt_div_iff₀ (two_zpow_pos e),
        div_self (two_zpow_pos e).ne']
      simpa using hlt
    rw [Nat.log2_zero]
    unfold lastPlace at he ⊢
    omega
  · rw [hq, lastPlace_eq hmpos hle hlt]

/-- A full mantissa, or one at the lower end of the range. -/
structure Canonical (m : ℕ) (e : ℤ) : Prop where
  lt : m < 2 ^ 53
  ge : -1074 ≤ e
  full : 2 ^ 52 ≤ m ∨ e = -1074

/-- The parts of a float stand for the number `q` with the sign `s`. -/
inductive Denotes (s : Sign) : ℚ → UnpackedFloat → Prop where
  | zero : Denotes s 0 (.zero s)
  | finite {m : ℕ} {e : ℤ} (h : 0 < m) (hc : Canonical m e) :
    Denotes s (m * 2 ^ e) (.finite s m e h)

theorem Denotes.nonneg {u : UnpackedFloat} (h : Denotes s q u) : 0 ≤ q := by
  cases h with
  | zero => exact le_rfl
  | finite hm _ => exact mul_nonneg (Nat.cast_nonneg _) (two_zpow_pos _).le

theorem Denotes.nearest_eq {u : UnpackedFloat} (h : Denotes s q u) : nearest q = q := by
  cases h with
  | zero => exact nearest_zero
  | finite hm hc => exact nearest_mul_two_zpow hc.lt hc.ge

theorem Denotes.unique {t : Sign} {p : ℚ} {u : UnpackedFloat} (hp : Denotes s p u)
    (hq : Denotes t q u) : s = t ∧ p = q := by
  cases hp with
  | zero => cases hq with | zero => exact ⟨rfl, rfl⟩
  | finite => cases hq with | finite => exact ⟨rfl, rfl⟩

theorem shiftToTargetExponent_of_lt (hm : m < 2 ^ 53) (he : -1074 ≤ e) :
    shiftToTargetExponent Format.binary64 m e .exact = (⟨m, false, false⟩, e) := by
  have hlog : m.log2 < 53 := by
    rcases m.eq_zero_or_pos with rfl | hpos
    · decide
    · exact (Nat.log2_lt hpos.ne').mpr hm
  have hshift : (Format.binary64.targetExponent (totalExponent m e) - e).toNat = 0 := by
    rw [targetExponent_eq]
    omega
  rw [shiftToTargetExponent, shiftToExponent, hshift]
  simp [HShiftRight.hShiftRight, Nat.repeat, ExtendedMantissa.ofMantissaAndAccuracy]

theorem shiftToTargetExponent_carry (he : -1074 ≤ e) :
    shiftToTargetExponent Format.binary64 (2 ^ 53) e .exact = (⟨2 ^ 52, false, false⟩, e + 1) := by
  have hshift : (Format.binary64.targetExponent (totalExponent (2 ^ 53) e) - e).toNat = 1 := by
    rw [targetExponent_eq, Nat.log2_two_pow]
    omega
  rw [shiftToTargetExponent, shiftToExponent, hshift]
  rfl

theorem roundWithAccuracy_eq {em em' : ExtendedMantissa} {t t' : ℤ} (s : Sign)
    (h : shiftToTargetExponent Format.binary64 m e accuracy = (em, t))
    (h' : shiftToTargetExponent Format.binary64 em.roundedMantissa t .exact = (em', t')) :
    roundWithAccuracy Format.binary64 s m e accuracy =
      if hzero : em'.mantissa = 0 then .zero s
      else .finite s em'.mantissa t' (Nat.pos_of_ne_zero hzero) := by
  unfold roundWithAccuracy
  rw [h]
  dsimp only
  rw [h']

/-- The second shift of a rounding only takes in a carry. -/
theorem denotes_of_shift {em : ExtendedMantissa} {t : ℤ} (s : Sign)
    (hshift : shiftToTargetExponent Format.binary64 m e accuracy = (em, t))
    (hle : em.roundedMantissa ≤ 2 ^ 53) (ht : -1074 ≤ t)
    (hfull : 2 ^ 52 ≤ em.roundedMantissa ∨ t = -1074) :
    Denotes s (em.roundedMantissa * 2 ^ t) (roundWithAccuracy Format.binary64 s m e accuracy) := by
  rcases hle.lt_or_eq with hlt | heq
  · rw [roundWithAccuracy_eq s hshift (shiftToTargetExponent_of_lt hlt ht)]
    by_cases hzero : em.roundedMantissa = 0
    · rw [dif_pos hzero, hzero, Nat.cast_zero, zero_mul]
      exact .zero
    · rw [dif_neg hzero]
      exact .finite _ ⟨hlt, ht, hfull⟩
  · have hcarry : (em.roundedMantissa : ℚ) * 2 ^ t = (2 ^ 52 : ℕ) * 2 ^ (t + 1) := by
      rw [heq, zpow_add_one₀ two_ne_zero]
      push_cast
      ring
    rw [roundWithAccuracy_eq s hshift (heq ▸ shiftToTargetExponent_carry ht), hcarry,
      dif_neg (by decide)]
    exact .finite _ ⟨by decide, by omega, .inl le_rfl⟩

theorem Tells.shiftToTargetExponent
    (h : Tells (ExtendedMantissa.ofMantissaAndAccuracy m accuracy) x) (hx : 0 < x)
    (hq : q = x * 2 ^ e) (he : e ≤ lastPlace q) :
    ∃ em, shiftToTargetExponent Format.binary64 m e accuracy = (em, lastPlace q) ∧
      Tells em (q / 2 ^ lastPlace q) := by
  have hm : (m : ℤ) = ⌊x⌋ := mantissa_ofMantissaAndAccuracy m accuracy ▸ h.mantissa
  obtain ⟨d, hd⟩ : ∃ d : ℕ, lastPlace q = e + d :=
    ⟨(lastPlace q - e).toNat, by omega⟩
  refine ⟨ExtendedMantissa.ofMantissaAndAccuracy m accuracy >>> d, ?_, ?_⟩
  · have hshift : (lastPlace q - e).toNat = d := by omega
    unfold UnpackedFloat.shiftToTargetExponent shiftToExponent
    simp only [targetExponent_eq_lastPlace hx hm hq he, hshift]
    rw [hd]
  · have hscaled : q / 2 ^ lastPlace q = x / 2 ^ d := by
      rw [hd, hq, zpow_add₀ two_ne_zero, zpow_natCast, mul_comm x, mul_div_mul_left]
      exact (two_zpow_pos e).ne'
    exact hscaled ▸ h.shiftRight d

/-- Rounding a mantissa that is not too coarse leaves the nearest float. -/
theorem denotes_roundWithAccuracy (s : Sign)
    (h : Tells (ExtendedMantissa.ofMantissaAndAccuracy m accuracy) x) (hx : 0 < x)
    (hq : q = x * 2 ^ e) (he : e ≤ lastPlace q) :
    Denotes s (nearest q) (roundWithAccuracy Format.binary64 s m e accuracy) := by
  have hpos : 0 < q := hq ▸ mul_pos hx (two_zpow_pos e)
  obtain ⟨em, hshift, hem⟩ := h.shiftToTargetExponent hx hq he
  have hrounded := hem.roundedMantissa
  have hle : em.roundedMantissa ≤ 2 ^ 53 := by
    exact_mod_cast hrounded ▸ roundEven_lastPlace_le q
  have hfull : 2 ^ 52 ≤ em.roundedMantissa ∨ lastPlace q = -1074 := by
    by_cases hlast : lastPlace q = -1074
    · exact .inr hlast
    · exact .inl (by exact_mod_cast hrounded ▸ le_roundEven_lastPlace hpos hlast)
  rw [nearest, ← hrounded, Int.cast_natCast]
  exact denotes_of_shift s hshift hle (le_max_right _ _) hfull

/-- Every number with a mantissa and an exponent is rounded to the nearest float. -/
theorem denotes_round (s : Sign) (hm : 0 < m) (e : ℤ) :
    Denotes s (nearest (m * 2 ^ e)) (UnpackedFloat.round Format.binary64 s m e) := by
  have hlast : lastPlace (m * 2 ^ e) = max (m.log2 + e - 52) (-1074) :=
    lastPlace_eq hm le_rfl (lt_add_one _)
  have htarget := (targetExponent_eq m e).trans hlast.symm
  unfold UnpackedFloat.round decreaseExponent
  simp only [htarget]
  generalize hk : (e - lastPlace (m * 2 ^ e)).toNat = k
  have hvalue : ((m * 2 ^ e : ℚ)) = (m <<< k : ℕ) * 2 ^ (e - k) := by
    rw [Nat.shiftLeft_eq, zpow_sub₀ two_ne_zero, zpow_natCast]
    push_cast
    field_simp
  refine denotes_roundWithAccuracy s (tells_exact _) ?_ hvalue (by omega)
  rw [Nat.shiftLeft_eq]
  exact_mod_cast Nat.mul_pos hm (Nat.two_pow_pos k)

end LoadReport.Binary64
