import LoadReport.Proofs.Binary64.Comparison

/-! # Whole parts of floats

Turning a float into a word drops the fraction. What is below zero and NaN become 0, what is too
large for a word becomes the largest one. So a word tells nothing of a float that is not above zero,
and above zero words keep the order of floats.
-/

namespace LoadReport.Binary64

open Float.Model Float.Model.UnpackedFloat

variable {s : Sign} {q : ℚ} {u v : UnpackedFloat} {x y : Float} {n : ℕ}

theorem roundToInt_eq (s : Sign) (m : ℕ) (e : ℤ) :
    roundToInt s m e = s.apply ⌊(m * 2 ^ e : ℚ)⌋ := by
  unfold roundToInt decreaseExponent shiftToExponent
  dsimp only
  rw [((tells_exact _).shiftRight _).mantissa, Nat.shiftLeft_eq]
  congr 2
  obtain ⟨k, rfl | rfl⟩ := e.eq_nat_or_neg
  · rw [show (0 - (k - ((k - 0 : ℤ).toNat : ℤ))).toNat = 0 by omega,
      show (k - 0 : ℤ).toNat = k by omega, pow_zero, div_one, zpow_natCast]
    push_cast
    rfl
  · rw [show (0 - (-k - ((-k - 0 : ℤ).toNat : ℤ))).toNat = k by omega,
      show (-k - 0 : ℤ).toNat = 0 by omega, pow_zero, mul_one, zpow_neg, zpow_natCast,
      div_eq_mul_inv]

theorem toNat_ofNatClamp (n : ℕ) : (UInt64.ofNatClamp n).toNat = min n (2 ^ 64 - 1) := by
  have hsize : UInt64.size = 2 ^ 64 := rfl
  rcases lt_or_ge n UInt64.size with h | h
  · rw [UInt64.toNat_ofNatClamp_of_lt h]
    omega
  · rw [UInt64.toNat_ofNatClamp_of_le h]
    omega

theorem toUInt64_finite (s : Sign) {m : ℕ} (e : ℤ) (hm : 0 < m) :
    (UnpackedFloat.finite s m e hm).toUInt64 =
      UInt64.ofNatClamp (s.apply ⌊(m * 2 ^ e : ℚ)⌋).toNat := by
  rw [← roundToInt_eq]
  rfl

theorem Denotes.toNat_toUInt64 (h : Denotes .positive q u) :
    u.toUInt64.toNat = min ⌊q⌋₊ (2 ^ 64 - 1) := by
  cases h with
  | zero =>
    rw [Nat.floor_zero]
    rfl
  | finite hm hc =>
    rw [toUInt64_finite, toNat_ofNatClamp]
    rfl

/-- The whole part of a number that is not negative, as far as a word can hold it. -/
theorem Is.toNat_toUInt64 (h : Is x .positive q) :
    x.toUInt64.toNat = min ⌊q⌋₊ (2 ^ 64 - 1) := h.denotes.toNat_toUInt64

/-! ### Zero and below -/

/-- An unpacked float that is not above zero, or NaN. -/
inductive Low : UnpackedFloat → Prop where
  | nan : Low .notANumber
  | infinity : Low (.infinity .negative)
  | zero (s : Sign) : Low (.zero s)
  | negative {q : ℚ} {u : UnpackedFloat} (h : Denotes .negative q u) : Low u

theorem Low.toUInt64 (h : Low u) : u.toUInt64 = 0 := by
  cases h with
  | nan => rfl
  | infinity => rfl
  | zero s => rfl
  | negative h =>
    cases h with
    | zero => rfl
    | @finite m e hm hc =>
      have hfloor : 0 ≤ ⌊(m * 2 ^ e : ℚ)⌋ := Int.floor_nonneg.mpr (finite_pos hm e).le
      rw [toUInt64_finite, Sign.apply, Int.toNat_of_nonpos (by omega)]
      rfl

theorem Low.pack (h : Low u) : Low (Float.Model.pack u).unpack := by
  cases h with
  | nan => exact .nan
  | infinity =>
    rw [unpack_pack_infinity]
    exact .infinity
  | zero s =>
    rw [unpack_pack_zero]
    exact .zero s
  | @negative q _ h =>
    rcases lt_or_ge q (2 ^ (1024 : ℤ)) with hq | hq
    · exact .negative (h.is_pack hq).denotes
    · rw [h.unpack_pack_of_le hq]
      exact .infinity

/-! ### Above zero -/

inductive High : UnpackedFloat → Prop where
  | infinity : High (.infinity .positive)
  | number {q : ℚ} {u : UnpackedFloat} (h : Denotes .positive q u) (hq : 0 < q) : High u

/-- A natural number other than zero may be too large for the range, and no more. -/
theorem unpack_ofNat (hn : 0 < n) :
    (Float.ofNat n).toModel.unpack = .infinity .positive ∨
      Is (Float.ofNat n) .positive (nearest n) := by
  rcases lt_or_ge (nearest n) (2 ^ (1024 : ℤ)) with hlt | hge
  · exact .inr (is_ofNat hlt)
  · left
    have hvalue : (n * 10 ^ 0 : ℚ) = n := by rw [pow_zero, mul_one]
    have hden := denotes_ofScientific_of_lt (n := 0) hn (by decide)
    rw [hvalue] at hden
    have hlarge : ¬ (n < 2 ^ 53 ∧ 0 ≤ 22) := by
      rintro ⟨hsmall, -⟩
      refine absurd hge (not_le.mpr ?_)
      calc
        nearest n ≤ 2 ^ (53 : ℤ) :=
          nearest_le_two_zpow n.cast_nonneg (by decide) (by exact_mod_cast hsmall.le)
        _ < 2 ^ (1024 : ℤ) := two_zpow_lt_range (by decide)
    have hcast : Float.ofNat n =
        ⟨Float.Model.pack (UnpackedFloat.ofScientific Format.binary64 n ((0 : ℕ) : ℤ))⟩ := by
      change Float.ofScientific n false 0 = _
      unfold Float.ofScientific
      exact dif_neg hlarge
    rw [hcast]
    exact hden.unpack_pack_of_le hge

theorem one_le_nearest_natCast (hn : 0 < n) : 1 ≤ nearest n := by
  have hone : (2 : ℚ) ^ (0 : ℤ) ≤ n := by exact_mod_cast hn
  exact two_zpow_le_nearest (k := 0) (by decide) hone

theorem high_ofNat (hn : 0 < n) : High (Float.ofNat n).toModel.unpack := by
  rcases unpack_ofNat hn with hinf | hx
  · rw [hinf]
    exact .infinity
  · exact .number hx.denotes (zero_lt_one.trans_le (one_le_nearest_natCast hn))

/-- Above zero, the first float is not above the second. -/
inductive PositiveLE : UnpackedFloat → UnpackedFloat → Prop where
  | low {u v : UnpackedFloat} (h : Low u) : PositiveLE u v
  | infinity (u : UnpackedFloat) : PositiveLE u (.infinity .positive)
  | number {p q : ℚ} {u v : UnpackedFloat} (hu : Denotes .positive p u)
    (hv : Denotes .positive q v) (h : p ≤ q) : PositiveLE u v

theorem PositiveLE.toUInt64 (h : PositiveLE u v) : u.toUInt64.toNat ≤ v.toUInt64.toNat := by
  cases h with
  | low h =>
    rw [h.toUInt64]
    exact Nat.zero_le _
  | infinity =>
    have hv : (UnpackedFloat.infinity .positive).toUInt64.toNat = 2 ^ 64 - 1 := rfl
    have hu := u.toUInt64.toNat_lt
    omega
  | number hu hv h =>
    rw [hu.toNat_toUInt64, hv.toNat_toUInt64]
    exact min_le_min_right _ (Nat.floor_mono h)

/-- Packing keeps the order, also if what is packed overflows. -/
theorem PositiveLE.pack (h : PositiveLE u v) :
    PositiveLE (Float.Model.pack u).unpack (Float.Model.pack v).unpack := by
  cases h with
  | low h => exact .low h.pack
  | infinity =>
    rw [unpack_pack_infinity]
    exact .infinity _
  | @number p q _ _ hu hv h =>
    rcases lt_or_ge q (2 ^ (1024 : ℤ)) with hq | hq
    · exact .number (hu.is_pack (h.trans_lt hq)).denotes (hv.is_pack hq).denotes h
    · rw [hv.unpack_pack_of_le hq]
      exact .infinity _

/-! ### Comparison of floats -/

/-- What an unpacked float can be: NaN, infinite or a number. -/
inductive Kind : UnpackedFloat → Prop where
  | nan : Kind .notANumber
  | infinity (s : Sign) : Kind (.infinity s)
  | number {s : Sign} {q : ℚ} {u : UnpackedFloat} (h : Denotes s q u) : Kind u

theorem kind_unpack (x : Float) : Kind x.toModel.unpack := by
  by_cases hfinite : x.isFinite = true
  · obtain ⟨s, q, hx⟩ := exists_is hfinite
    exact .number hx.denotes
  · have h : ¬ x.toModel.unpack.isFinite = true := hfinite
    cases hu : x.toModel.unpack with
    | notANumber => exact .nan
    | infinity s => exact .infinity s
    | _ => exact absurd (hu ▸ rfl) h

theorem PositiveLE.of_le (hu : Kind u) (hv : Kind v) (h : u.le v = true) : PositiveLE u v := by
  cases hu with
  | nan => exact .low .nan
  | infinity s =>
    cases s with
    | negative => exact .low .infinity
    | positive =>
      cases hv with
      | nan => cases h
      | infinity t =>
        cases t with
        | negative => cases h
        | positive => exact .infinity _
      | number hv => cases hv <;> cases h
  | @number s p _ hu =>
    cases s with
    | negative => exact .low (.negative hu)
    | positive =>
      cases hv with
      | nan => cases hu <;> cases h
      | infinity t =>
        cases t with
        | negative => cases hu <;> cases h
        | positive => exact .infinity _
      | @number t q _ hv =>
        have hle := (hu.le_iff hv).mp h
        cases t with
        | positive => exact .number hu hv hle
        | negative =>
          cases hu with
          | zero => exact .low (.zero _)
          | finite hm hc =>
            have hnonpos := hle.trans (neg_nonpos.mpr hv.nonneg)
            exact absurd hnonpos (finite_pos hm _).not_ge

theorem positiveLE_of_le (h : x ≤ y) : PositiveLE x.toModel.unpack y.toModel.unpack :=
  .of_le (kind_unpack x) (kind_unpack y) (of_decide_eq_true h)

theorem PositiveLE.low_of_zero (h : PositiveLE u (.zero s)) : Low u := by
  cases h with
  | low h => exact h
  | number hu hv h =>
    cases hv
    cases hu with
    | zero => exact .zero _
    | finite hm hc => exact absurd h (finite_pos hm _).not_ge

theorem low_of_nonpos (h : x ≤ 0) : Low x.toModel.unpack := by
  have hle := positiveLE_of_le h
  rw [unpack_zero] at hle
  exact hle.low_of_zero

theorem low_of_isNaN (h : x.isNaN = true) : Low x.toModel.unpack := by
  have hnan : x.toModel.unpack.isNaN = true := h
  cases hu : x.toModel.unpack with
  | notANumber => exact .nan
  | _ =>
    rw [hu] at hnan
    cases hnan

end LoadReport.Binary64
