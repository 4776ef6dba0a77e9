import LoadReport.Digit
import Mathlib.Algebra.Group.Nat.Defs
import Mathlib.Data.List.Induction
import Mathlib.Data.Nat.Basic

/-! # Numbers read from digits

Digits are read from the left, but the number is also the first digit in its place plus the number
of the rest. So numbers of equally many digits are compared digit by digit, and leading zeros apart,
more digits make a greater number.
-/

namespace LoadReport.Digit

variable {cs ds : List Char} {c d : Char} {a b m n : ℕ}

theorem value?_le {c : Char} {d : ℕ} (h : value? c = some d) : d ≤ 9 := by
  simp only [value?, Option.ite_none_right_eq_some, Bool.and_eq_true, decide_eq_true_eq] at h
  obtain ⟨⟨_, hc⟩, hd⟩ := h
  have hle : c.toNat ≤ '9'.toNat := hc
  rw [← Option.some.inj hd]
  exact Nat.sub_le_of_le_add hle

theorem number?_concat (cs : List Char) (c : Char) :
    number? (cs ++ [c]) = (number? cs).bind fun n => (value? c).map (n * 10 + ·) := by
  simp only [number?, List.mapM_append, List.mapM_cons, List.mapM_nil]
  cases cs.mapM value? <;> cases value? c <;> simp [number]

/-- A text of `n` digits denotes a number below `10 ^ n`. -/
theorem number?_lt {cs : List Char} {n : ℕ} (h : number? cs = some n) : n < 10 ^ cs.length := by
  induction cs using List.reverseRecOn generalizing n with
  | nil =>
    obtain rfl : 0 = n := by simpa [number?, number] using h
    simp
  | append_singleton cs c ih =>
    rw [number?_concat] at h
    obtain ⟨m, hm, hn⟩ := Option.bind_eq_some_iff.mp h
    obtain ⟨d, hd, rfl⟩ := Option.map_eq_some_iff.mp hn
    have hlt := ih hm
    have hle := value?_le hd
    rw [List.length_append, List.length_singleton, Nat.pow_succ]
    omega

theorem number?_cons (c : Char) (cs : List Char) :
    number? (c :: cs) =
      (value? c).bind fun d => (number? cs).map (d * 10 ^ cs.length + ·) := by
  induction cs using List.reverseRecOn with
  | nil => cases h : value? c <;> simp [number?, number, h]
  | append_singleton cs e ih =>
    rw [← List.cons_append, number?_concat, ih, number?_concat, List.length_append,
      List.length_singleton]
    cases value? c with
    | none => rfl
    | some d =>
      cases number? cs with
      | none => rfl
      | some n =>
        cases value? e with
        | none => rfl
        | some k => simp [Nat.pow_succ, Nat.add_mul, Nat.mul_assoc, Nat.add_assoc]

theorem toNat_eq_of_value? (h : value? c = some a) : c.toNat = a + '0'.toNat := by
  simp only [value?, Option.ite_none_right_eq_some, Bool.and_eq_true, decide_eq_true_eq] at h
  obtain ⟨⟨hc, _⟩, ha⟩ := h
  have hle : '0'.toNat ≤ c.toNat := hc
  rw [← Option.some.inj ha, Nat.sub_add_cancel hle]

theorem compare_of_value? (hc : value? c = some a) (hd : value? d = some b) :
    compare c d = compare a b := by
  have hc' := toNat_eq_of_value? hc
  have hd' := toNat_eq_of_value? hd
  have hlt : c < d ↔ a < b := by
    change c.toNat < d.toNat ↔ a < b
    rw [hc', hd', Nat.add_lt_add_iff_right]
  have heq : c = d ↔ a = b := by
    rw [← Char.toNat_inj, hc', hd', Nat.add_right_cancel_iff]
  simp only [compare, compareOfLessAndEq, hlt, heq]

/-- Numbers are compared by their leading parts first. -/
theorem compare_mul_add {u : ℕ} (hm : m < u) (hn : n < u) :
    compare (a * u + m) (b * u + n) = (compare a b).then (compare m n) := by
  have hstep : ∀ {x y : ℕ}, x < y → x * u + u ≤ y * u := fun hxy => by
    rw [← Nat.succ_mul]
    exact Nat.mul_le_mul_right u hxy
  rcases Nat.lt_trichotomy a b with hab | rfl | hab
  · have hle := hstep hab
    rw [Nat.compare_eq_lt.mpr hab, Nat.compare_eq_lt.mpr (by omega)]
    rfl
  · rw [Nat.compare_eq_eq.mpr rfl, Ordering.eq_then]
    simp only [compare, compareOfLessAndEq, Nat.add_lt_add_iff_left, Nat.add_left_cancel_iff]
  · have hle := hstep hab
    rw [Nat.compare_eq_gt.mpr hab, Nat.compare_eq_gt.mpr (by omega)]
    rfl

theorem compare_of_number? (hc : number? cs = some m) (hd : number? ds = some n)
    (h : cs.length = ds.length) : compare cs ds = compare m n := by
  induction cs generalizing ds m n with
  | nil =>
    obtain rfl := List.length_eq_zero_iff.mp h.symm
    rw [Option.some.inj (hc.symm.trans hd), Nat.compare_eq_eq.mpr rfl]
    rfl
  | cons c cs ih =>
    cases ds with
    | nil => simp at h
    | cons d ds =>
      have hlength : cs.length = ds.length := Nat.succ.inj h
      rw [number?_cons] at hc hd
      obtain ⟨a, ha, hc⟩ := Option.bind_eq_some_iff.mp hc
      obtain ⟨b, hb, hd⟩ := Option.bind_eq_some_iff.mp hd
      obtain ⟨m, hm, rfl⟩ := Option.map_eq_some_iff.mp hc
      obtain ⟨n, hn, rfl⟩ := Option.map_eq_some_iff.mp hd
      rw [List.compare_cons_cons, compare_of_value? ha hb, ih hm hn hlength, ← hlength,
        compare_mul_add (number?_lt hm) (hlength ▸ number?_lt hn)]

theorem number?_eq_some_of_all (h : cs.all (value? · |>.isSome)) : ∃ n, number? cs = some n := by
  induction cs with
  | nil => exact ⟨0, rfl⟩
  | cons c cs ih =>
    obtain ⟨hc, hcs⟩ := Bool.and_eq_true_iff.mp h
    obtain ⟨d, hd⟩ := Option.isSome_iff_exists.mp hc
    obtain ⟨n, hn⟩ := ih hcs
    exact ⟨d * 10 ^ cs.length + n, by rw [number?_cons, hd, hn]; rfl⟩

theorem number?_eq_none (h : ¬ cs.all (value? · |>.isSome)) : number? cs = none := by
  induction cs with
  | nil => exact absurd rfl h
  | cons c cs ih =>
    rw [number?_cons]
    cases hc : value? c with
    | none => rfl
    | some d =>
      rw [ih]
      · rfl
      · simpa [hc] using h

theorem number?_dropWhile_zero (cs : List Char) :
    number? (cs.dropWhile (· = '0')) = number? cs := by
  induction cs with
  | nil => rfl
  | cons c cs ih =>
    by_cases hc : c = '0'
    · have hzero : value? '0' = some 0 := by decide
      rw [List.dropWhile_cons_of_pos (by simpa using hc), ih, hc, number?_cons, hzero]
      simp
    · rw [List.dropWhile_cons_of_neg (by simpa using hc)]

theorem number?_ge (h : number? (c :: cs) = some n) (hc : c ≠ '0') : 10 ^ cs.length ≤ n := by
  rw [number?_cons] at h
  obtain ⟨d, hd, h⟩ := Option.bind_eq_some_iff.mp h
  obtain ⟨m, _, rfl⟩ := Option.map_eq_some_iff.mp h
  have hpos : 0 < d := by
    refine Nat.pos_of_ne_zero fun hz => hc ?_
    rw [← Char.toNat_inj, toNat_eq_of_value? hd, hz, Nat.zero_add]
  exact Nat.le_add_right_of_le (Nat.le_mul_of_pos_left _ hpos)

/-- Without leading zeros, more digits make a greater number. -/
theorem lt_of_length_lt (hc : number? cs = some m) (hd : number? ds = some n)
    (hd' : ds.head? ≠ some '0') (h : cs.length < ds.length) : m < n := by
  cases ds with
  | nil => simp at h
  | cons d ds =>
    calc
      m < 10 ^ cs.length := number?_lt hc
      _ ≤ 10 ^ ds.length := Nat.pow_le_pow_right (by decide) (Nat.le_of_lt_succ h)
      _ ≤ n := number?_ge hd (by simpa using hd')

/-- Digits without leading zeros are compared as numbers by their count and then one by one. -/
theorem compare_length_then (hc : number? cs = some m) (hd : number? ds = some n)
    (hc' : cs.head? ≠ some '0') (hd' : ds.head? ≠ some '0') :
    (compare cs.length ds.length).then (compare cs ds) = compare m n := by
  rcases Nat.lt_trichotomy cs.length ds.length with h | h | h
  · rw [Nat.compare_eq_lt.mpr h, Nat.compare_eq_lt.mpr (lt_of_length_lt hc hd hd' h)]
    rfl
  · rw [Nat.compare_eq_eq.mpr h, Ordering.eq_then, compare_of_number? hc hd h]
  · rw [Nat.compare_eq_gt.mpr h, Nat.compare_eq_gt.mpr (lt_of_length_lt hd hc hc' h)]
    rfl

end LoadReport.Digit
