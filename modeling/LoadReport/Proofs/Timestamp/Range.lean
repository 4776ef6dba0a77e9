import LoadReport.Proofs.Timestamp.Instant

/-! # The range of timestamps

A timestamp that was read from a text lies in one of ten thousand years, and its offset is a number
of minutes that are less than a day. So it is known how far two such timestamps can be apart, and
that a leap second ends a minute of UTC too.
-/

namespace LoadReport.Timestamp

variable {t u : Timestamp}

/-- What the form of a text adds to a valid date and time of day. -/
structure Written (t : Timestamp) : Prop where
  wellFormed : t.WellFormed
  year : t.year < 10 ^ 4
  offset : -86400 < t.offset ∧ t.offset < 86400
  minutes : 60 ∣ t.offset

theorem offset?_spec {cs : List Char} {o : ℤ} (h : offset? cs = some o) :
    (-86400 < o ∧ o < 86400) ∧ 60 ∣ o := by
  unfold offset? at h
  split at h
  · cases h
    decide
  · cases h
    decide
  · simp only [Option.bind_eq_bind, Option.bind_eq_some_iff] at h
    obtain ⟨hours, -, minutes, -, h⟩ := h
    split_ifs at h with hrange hplus hminus
    · cases h
      simp only [Bool.and_eq_true, decide_eq_true_eq] at hrange
      omega
    · cases h
      simp only [Bool.and_eq_true, decide_eq_true_eq] at hrange
      omega
  · cases h

theorem written_of_ofChars? {cs : List Char} (h : ofChars? cs = some t) : t.Written := by
  have hw := wellFormed_of_ofChars? h
  unfold ofChars? at h
  split at h
  · simp only [Option.bind_eq_bind, Option.bind_eq_some_iff, Option.ite_none_right_eq_some,
      Option.some.injEq] at h
    obtain ⟨_, hyear, _, _, _, _, _, _, _, _, _, _, _, _, _, hoffset, _, rfl⟩ := h
    obtain ⟨hrange, hminutes⟩ := offset?_spec hoffset
    exact ⟨hw, Digit.number?_lt hyear, hrange, hminutes⟩
  · simp at h

theorem written_of_parse? {s : String} (h : parse? s = some t) : t.Written :=
  written_of_ofChars? h

theorem monotone_daysBeforeYear : Monotone daysBeforeYear :=
  monotone_nat_of_le_succ fun y => by rw [daysBeforeYear_succ]; omega

theorem Written.dayNumber_bounds (h : t.Written) :
    -719528 ≤ t.dayNumber ∧ t.dayNumber < 2932897 := by
  obtain ⟨⟨hm, hd, -, -, -, -⟩, hyear, -, -⟩ := h
  have hday : daysBeforeMonth t.year t.month + (t.day - 1) < daysInYear t.year :=
    daysBeforeMonth_add_lt hm.1 hm.2 (by omega)
  have hnext := daysBeforeYear_succ t.year
  have hlast : daysBeforeYear (t.year + 1) ≤ daysBeforeYear 10000 :=
    monotone_daysBeforeYear (by omega)
  have hyears : daysBeforeYear 10000 = 3652425 := by decide
  have hepoch : daysBeforeYear 1970 = 719528 := by decide
  rw [dayNumber, hepoch]
  omega

theorem Written.fraction_lt (h : t.Written) : t.fraction < 2000000000 := by
  have hn := h.wellFormed.nanosecond
  rw [fraction]
  split_ifs <;> omega

theorem Written.unix_bounds (h : t.Written) :
    -62167305600 < t.unix ∧ t.unix < 253402473600 := by
  have hday := h.dayNumber_bounds
  obtain ⟨⟨-, -, hh, hmin, hs, -⟩, -, hoffset, -⟩ := h
  rw [unix]
  omega

/-- A leap second is the last second of a minute of UTC. -/
theorem Written.unix_emod_of_leap (h : t.Written) (hf : 1000000000 ≤ t.fraction) :
    t.unix % 60 = 59 := by
  have hn := h.wellFormed.nanosecond
  have hs : t.second = 60 := by
    rw [fraction] at hf
    split_ifs at hf with hs
    · exact hs
    · omega
  have hminutes := h.minutes
  rw [unix, hs]
  omega

theorem Written.nanosecondsSince_bounds (ht : t.Written) (hu : u.Written) :
    -400000000000000000000 < t.nanosecondsSince u ∧
      t.nanosecondsSince u < 400000000000000000000 := by
  have := ht.unix_bounds
  have := hu.unix_bounds
  have := ht.fraction_lt
  have := hu.fraction_lt
  rw [nanosecondsSince]
  split_ifs <;> omega

end LoadReport.Timestamp
