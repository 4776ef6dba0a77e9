import LoadReport.Proofs.Binary64.Arithmetic

/-! # Arithmetic without NaN

NaN comes only of NaN, of an infinity with an infinity, and of a zero with a zero or an infinity. So
a finite summand, or a finite factor or divisor other than zero, leaves a float that is not NaN as
one that is not NaN, whether the result overflows or not.
-/

namespace LoadReport.Binary64

open Float.Model Float.Model.UnpackedFloat

variable {s t : Sign} {q : ℚ} {u v : UnpackedFloat} {x y : Float}

theorem isNaN_of_unpacked (h : u.isFinite = true) : u.isNaN = false := by
  cases u with
  | notANumber => cases h
  | _ => rfl

theorem isNaN_of_isFinite (h : x.isFinite = true) : x.isNaN = false :=
  isNaN_of_unpacked (u := x.toModel.unpack) h

theorem isFinite_of_unpacked (hnan : u.isNaN = false) (hinf : u.isInf = false) :
    u.isFinite = true := by
  cases u with
  | notANumber => cases hnan
  | infinity s => cases hinf
  | _ => rfl

theorem isFinite_of_isInf (hnan : x.isNaN = false) (hinf : x.isInf = false) : x.isFinite = true :=
  isFinite_of_unpacked (u := x.toModel.unpack) hnan hinf

theorem isNaN_finite_or_zero (s : Sign) (m : ℕ) (e : ℤ) :
    (if hzero : m = 0 then .zero s
      else .finite s m e (Nat.pos_of_ne_zero hzero) : UnpackedFloat).isNaN = false := by
  by_cases hzero : m = 0
  · rw [dif_pos hzero]
    rfl
  · rw [dif_neg hzero]
    rfl

theorem isNaN_roundWithAccuracy (s : Sign) (m : ℕ) (e : ℤ) (accuracy : Accuracy) :
    (roundWithAccuracy Format.binary64 s m e accuracy).isNaN = false := by
  rw [roundWithAccuracy_eq s rfl rfl]
  exact isNaN_finite_or_zero _ _ _

theorem isNaN_normalize (z e : ℤ) (s : Sign) :
    (UnpackedFloat.normalize Format.binary64 z e s).isNaN = false := by
  unfold UnpackedFloat.normalize
  cases compare z 0
  case eq => rfl
  all_goals exact isNaN_roundWithAccuracy _ _ _ _

theorem isNaN_unpacked_add (hu : u.isNaN = false) (hv : v.isFinite = true) :
    (UnpackedFloat.add Format.binary64 u v).isNaN = false := by
  cases v with
  | notANumber => cases hv
  | infinity t => cases hv
  | zero t =>
    cases u with
    | notANumber => cases hu
    | zero s => cases s <;> cases t <;> rfl
    | _ => rfl
  | finite t n f hn =>
    cases u with
    | notANumber => cases hu
    | finite s m e hm => exact isNaN_normalize _ _ _
    | _ => rfl

theorem isNaN_unpacked_mul (hu : u.isNaN = false) (hv : Denotes t q v) (hq : 0 < q) :
    (UnpackedFloat.mul Format.binary64 u v).isNaN = false := by
  cases hv with
  | zero => exact absurd hq (lt_irrefl _)
  | finite hn hd =>
    cases u with
    | notANumber => cases hu
    | finite s m e hm => exact isNaN_roundWithAccuracy _ _ _ _
    | _ => rfl

theorem isNaN_unpacked_div (hu : u.isNaN = false) (hv : Denotes t q v) (hq : 0 < q) :
    (UnpackedFloat.div Format.binary64 u v).isNaN = false := by
  cases hv with
  | zero => exact absurd hq (lt_irrefl _)
  | finite hn hd =>
    cases u with
    | notANumber => cases hu
    | finite s m e hm => exact isNaN_roundWithAccuracy _ _ _ _
    | _ => rfl

theorem isNaN_unpacked_div_of_pos (hu : u.isFinite = true)
    (hv : (UnpackedFloat.zero s).lt v = true) :
    (UnpackedFloat.div Format.binary64 u v).isNaN = false := by
  cases v with
  | notANumber => cases hv
  | zero t => cases hv
  | infinity t =>
    cases u with
    | notANumber => cases hu
    | infinity s => cases hu
    | _ => rfl
  | finite t n f hn =>
    cases u with
    | notANumber => cases hu
    | infinity s => cases hu
    | zero s => rfl
    | finite s m e hm => exact isNaN_roundWithAccuracy _ _ _ _

/-- A sum is not NaN if one part is finite and the other is not NaN. -/
theorem isNaN_add (hx : x.isNaN = false) (hy : y.isFinite = true) : (x + y).isNaN = false :=
  (isNaN_unpack_pack _).trans (isNaN_unpacked_add hx hy)

/-- Scaling by a number other than zero does not make NaN. -/
theorem isNaN_mul (hx : x.isNaN = false) (hy : Is y t q) (hq : 0 < q) : (x * y).isNaN = false :=
  (isNaN_unpack_pack _).trans (isNaN_unpacked_mul hx hy.denotes hq)

theorem isNaN_div (hx : x.isNaN = false) (hy : Is y t q) (hq : 0 < q) : (x / y).isNaN = false :=
  (isNaN_unpack_pack _).trans (isNaN_unpacked_div hx hy.denotes hq)

theorem isNaN_div_of_pos (hx : x.isFinite = true) (hy : 0 < y) : (x / y).isNaN = false :=
  (isNaN_unpack_pack _).trans (isNaN_unpacked_div_of_pos hx (zero_lt_iff.mp hy))

end LoadReport.Binary64
