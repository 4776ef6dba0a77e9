import LoadReport.Timestamp
import Mathlib.Order.Monotone.Basic
import Mathlib.Algebra.Order.Group.Nat
import Mathlib.Data.Nat.Basic

/-! # The calendar

Years and the months of a year are consecutive blocks of days, so the number of a day tells its
date.
-/

namespace LoadReport.Timestamp

theorem block_lt {first len : ℕ → ℕ} (h : ∀ i, first (i + 1) = first i + len i) {i j a : ℕ}
    (ha : a < len i) (hij : i < j) : first i + a < first j := by
  have hmono : Monotone first := monotone_nat_of_le_succ fun i => by rw [h i]; omega
  calc
    first i + a < first i + len i := Nat.add_lt_add_left ha _
    _ = first (i + 1) := (h i).symm
    _ ≤ first j := hmono hij

/-- In a sequence of consecutive blocks a position tells its block and its place in it. -/
theorem block_unique (first len : ℕ → ℕ) (h : ∀ i, first (i + 1) = first i + len i)
    {i j a b : ℕ} (ha : a < len i) (hb : b < len j) (he : first i + a = first j + b) :
    i = j ∧ a = b := by
  rcases Nat.lt_trichotomy i j with hij | rfl | hij
  · have := block_lt h ha hij
    omega
  · exact ⟨rfl, by omega⟩
  · have := block_lt h hb hij
    omega

def daysInYear (y : ℕ) : ℕ := if isLeapYear y then 366 else 365

theorem isLeapYear_iff {y : ℕ} :
    isLeapYear y = true ↔ y % 4 = 0 ∧ (y % 100 ≠ 0 ∨ y % 400 = 0) := by simp [isLeapYear]

theorem ceilDiv_succ (y c : ℕ) :
    (y + 1 + c) / (c + 1) = (y + c) / (c + 1) + if y % (c + 1) = 0 then 1 else 0 := by
  have hd : c + 1 ∣ y + c + 1 ↔ y % (c + 1) = 0 := by
    rw [Nat.add_assoc, Nat.dvd_add_left (Nat.dvd_refl _), Nat.dvd_iff_mod_eq_zero]
  rw [Nat.add_right_comm, Nat.succ_div]
  simp only [hd]

theorem daysBeforeYear_succ (y : ℕ) : daysBeforeYear (y + 1) = daysBeforeYear y + daysInYear y := by
  have hle : (y + 99) / 100 ≤ (y + 3) / 4 := by omega
  have h100 : y % 100 = 0 → y % 4 = 0 := by omega
  have h400 : y % 400 = 0 → y % 100 = 0 := by omega
  simp only [daysBeforeYear, daysInYear, isLeapYear_iff, ceilDiv_succ y 3, ceilDiv_succ y 99,
    ceilDiv_succ y 399]
  generalize (y + 3) / 4 = a at *
  generalize (y + 99) / 100 = b at *
  generalize (y + 399) / 400 = c at *
  grind

theorem daysBeforeMonth_succ (y m : ℕ) :
    daysBeforeMonth y (m + 2) = daysBeforeMonth y (m + 1) + daysInMonth y (m + 1) := by
  simp [daysBeforeMonth, List.range_succ]

theorem daysBeforeMonth_thirteen (y : ℕ) : daysBeforeMonth y 13 = daysInYear y := by
  unfold daysInYear
  split_ifs with h <;> simp [daysBeforeMonth, List.range_succ, daysInMonth, h]

/-- Days up to one of a month lie within the year. -/
theorem daysBeforeMonth_add_lt {y m d : ℕ} (hm : 1 ≤ m) (hm' : m ≤ 12) (hd : d < daysInMonth y m) :
    daysBeforeMonth y m + d < daysInYear y := by
  obtain ⟨m, rfl⟩ := Nat.exists_eq_add_of_le' hm
  have hmono : Monotone fun i => daysBeforeMonth y (i + 1) :=
    monotone_nat_of_le_succ fun i => by rw [daysBeforeMonth_succ]; omega
  have hle : daysBeforeMonth y (m + 2) ≤ daysBeforeMonth y 13 :=
    hmono (show m + 1 ≤ 12 by omega)
  rw [daysBeforeMonth_succ, daysBeforeMonth_thirteen] at hle
  omega

/-- The number of a day tells its year, month and day. -/
theorem date_unique {y m d y' m' d' : ℕ} (hm : 1 ≤ m ∧ m ≤ 12) (hd : d < daysInMonth y m)
    (hm' : 1 ≤ m' ∧ m' ≤ 12) (hd' : d' < daysInMonth y' m')
    (h : daysBeforeYear y + (daysBeforeMonth y m + d) =
      daysBeforeYear y' + (daysBeforeMonth y' m' + d')) :
    y = y' ∧ m = m' ∧ d = d' := by
  obtain ⟨rfl, hmd⟩ := block_unique daysBeforeYear daysInYear daysBeforeYear_succ
    (daysBeforeMonth_add_lt hm.1 hm.2 hd) (daysBeforeMonth_add_lt hm'.1 hm'.2 hd') h
  obtain ⟨m, rfl⟩ := Nat.exists_eq_add_of_le' hm.1
  obtain ⟨m', rfl⟩ := Nat.exists_eq_add_of_le' hm'.1
  obtain ⟨rfl, rfl⟩ := block_unique (fun i => daysBeforeMonth y (i + 1))
    (fun i => daysInMonth y (i + 1)) (daysBeforeMonth_succ y) hd hd' hmd
  exact ⟨rfl, rfl, rfl⟩

end LoadReport.Timestamp
