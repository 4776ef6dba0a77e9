import LoadReport.Proofs.Digit
import LoadReport.Proofs.Timestamp.Calendar
import Mathlib.Tactic.SplitIfs

/-! # Instants

Timestamps are ordered by the instants they denote. A timestamp that was read from a text is known
from its instant and its offset.
-/

namespace LoadReport.Timestamp

variable {t u v : Timestamp}

/-- What timestamps of the same instant share, whatever their offsets. -/
def instant (t : Timestamp) : ℤ × ℕ := (t.unix, t.fraction)

theorem instant_eq_iff : t.instant = u.instant ↔ t.unix = u.unix ∧ t.fraction = u.fraction :=
  Prod.mk_inj

theorem le_iff : t.le u = true ↔ t.unix < u.unix ∨ t.unix = u.unix ∧ t.fraction ≤ u.fraction := by
  simp [le]

theorem le_refl (t : Timestamp) : t.le t := le_iff.mpr (.inr ⟨rfl, Nat.le_refl _⟩)

theorem le_trans (htu : t.le u) (huv : u.le v) : t.le v := by
  rw [le_iff] at *
  omega

theorem le_of_not_le (h : ¬ t.le u) : u.le t := by
  rw [le_iff] at *
  omega

theorem instant_eq_of_le_of_le (htu : t.le u) (hut : u.le t) : t.instant = u.instant := by
  rw [le_iff] at htu hut
  rw [instant_eq_iff]
  omega

theorem nanosecondsSince_congr {t' u' : Timestamp} (ht : t.instant = t'.instant)
    (hu : u.instant = u'.instant) : t.nanosecondsSince u = t'.nanosecondsSince u' := by
  obtain ⟨ht₁, ht₂⟩ := instant_eq_iff.mp ht
  obtain ⟨hu₁, hu₂⟩ := instant_eq_iff.mp hu
  unfold nanosecondsSince secondOfDay
  rw [ht₁, ht₂, hu₁, hu₂]

/-- A date of the calendar and a time of day with less than a second after the last whole one. -/
structure WellFormed (t : Timestamp) : Prop where
  month : 1 ≤ t.month ∧ t.month ≤ 12
  day : 1 ≤ t.day ∧ t.day ≤ daysInMonth t.year t.month
  hour : t.hour ≤ 23
  minute : t.minute ≤ 59
  second : t.second ≤ 60
  nanosecond : t.nanosecond < 10 ^ 9

theorem fraction?_lt {s rest : List Char} {n : ℕ} (h : fraction? s = some (n, rest)) :
    n < 10 ^ 9 := by
  unfold fraction? at h
  split at h
  · dsimp only at h
    split_ifs at h
    obtain ⟨m, hm, he⟩ := Option.bind_eq_some_iff.mp h
    obtain ⟨rfl, -⟩ := Prod.mk_inj.mp (Option.some.inj he)
    exact Nat.lt_of_lt_of_le (Digit.number?_lt hm) (Nat.pow_le_pow_right (by decide) (by simp))
  · obtain ⟨rfl, -⟩ := Prod.mk_inj.mp (Option.some.inj h)
    decide

theorem wellFormed_of_ofChars? {cs : List Char} (h : ofChars? cs = some t) : t.WellFormed := by
  unfold ofChars? at h
  split at h
  · simp only [Option.bind_eq_bind, Option.bind_eq_some_iff, Option.ite_none_right_eq_some,
      Option.some.injEq, Bool.and_eq_true, isValid, decide_eq_true_eq] at h
    obtain ⟨_, _, _, _, _, _, _, _, _, _, _, _, ⟨n, rest⟩, hn, _, _, ⟨_, hv⟩, rfl⟩ := h
    obtain ⟨⟨⟨⟨⟨⟨hm, hm'⟩, hd⟩, hd'⟩, hh⟩, hmin⟩, hs⟩ := hv
    exact ⟨⟨hm, hm'⟩, ⟨hd, hd'⟩, hh, hmin, hs, fraction?_lt hn⟩
  · simp at h

theorem wellFormed_of_parse? {s : String} (h : parse? s = some t) : t.WellFormed :=
  wellFormed_of_ofChars? h

/-- The instant and the offset tell all of a timestamp. -/
theorem WellFormed.eq_of_instant_eq (ht : t.WellFormed) (hu : u.WellFormed)
    (hi : t.instant = u.instant) (ho : t.offset = u.offset) : t = u := by
  obtain ⟨hunix, hfraction⟩ := instant_eq_iff.mp hi
  obtain ⟨hm, hd, hh, hmin, hs, hn⟩ := ht
  obtain ⟨hm', hd', hh', hmin', hs', hn'⟩ := hu
  obtain ⟨hday, htime⟩ : t.dayNumber = u.dayNumber ∧
      t.hour * 3600 + t.minute * 60 + min t.second 59 =
        u.hour * 3600 + u.minute * 60 + min u.second 59 := by
    simp only [unix, ho] at hunix
    omega
  obtain ⟨hleap, hnano⟩ : (t.second = 60 ↔ u.second = 60) ∧ t.nanosecond = u.nanosecond := by
    simp only [fraction] at hfraction
    split_ifs at hfraction <;> omega
  have hnumber : daysBeforeYear t.year + (daysBeforeMonth t.year t.month + (t.day - 1)) =
      daysBeforeYear u.year + (daysBeforeMonth u.year u.month + (u.day - 1)) := by
    simp only [dayNumber] at hday
    omega
  obtain ⟨hyear, hmonth, hdate⟩ := date_unique hm (by omega) hm' (by omega) hnumber
  obtain ⟨year, month, day, hour, minute, second, nanosecond, offset⟩ := t
  obtain ⟨year', month', day', hour', minute', second', nanosecond', offset'⟩ := u
  simp only [mk.injEq] at *
  omega

end LoadReport.Timestamp
