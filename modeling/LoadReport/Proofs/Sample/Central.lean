import LoadReport.Proofs.Binary64.Addition
import LoadReport.Proofs.Sample.Percentile
import LoadReport.Proofs.Sample.Value

/-! # Mean and median

Both divide a sum, the median one of two middle samples and the mean one of all. If the sum is in
the range, half of it lies between the two; if it overflows, the figure is infinite and beyond all
samples. Bounded samples have sums in the range.
-/

namespace LoadReport

open Binary64

namespace Sample

variable {xs : List Float} {x y a b : Float} {e : ℤ} {k : ℕ}

/-- Half of the sum of two samples is between them in the order of samples too, which tells zeros
apart. -/
theorem le_half_add (ha : a.isFinite = true) (hb : b.isFinite = true) (hab : le a b = true)
    (h : (a + b).isFinite = true) :
    le a ((a + b) / 2) = true ∧ le ((a + b) / 2) b = true := by
  obtain ⟨hlow, hhigh⟩ := value_half_add ha hb (value_le_of_le hab) h
  have hsign : sign ((a + b) / 2) = sumSign (sign a) (sign b) (value a + value b) := by
    rw [(is_half h).sign_eq, (is_add ha hb h).sign_eq]
  constructor
  · refine le_iff_value.mpr (hlow.lt_or_eq.imp_right fun heq => ⟨heq, ?_⟩)
    cases hs : sign a with
    | negative => exact .inl rfl
    | positive =>
      right
      have hnonneg := value_nonneg hs
      rw [hsign, hs]
      exact sumSign_positive _ (add_nonneg hnonneg (hnonneg.trans (value_le_of_le hab)))
  · refine le_iff_value.mpr (hhigh.lt_or_eq.imp_right fun heq => ⟨heq, ?_⟩)
    cases ht : sign b with
    | positive => exact .inr rfl
    | negative =>
      left
      have hnonpos := value_nonpos ht
      rw [hsign, sign_of_le hab ht, ht]
      exact sumSign_negative (add_nonpos ((value_le_of_le hab).trans hnonpos) hnonpos)

/-! ### Sums of bounded samples -/

/-- Not larger than `k` times a power of two. -/
structure Within (e : ℤ) (k : ℕ) (x : Float) : Prop where
  isFinite : x.isFinite = true
  magnitude_le : magnitude x ≤ k * 2 ^ e

theorem Within.add (he : -1074 ≤ e) (hk : k + 1 < 2 ^ 53)
    (hrange : ((k + 1 : ℕ) * 2 ^ e : ℚ) < 2 ^ (1024 : ℤ)) (hx : Within e k x) (hy : Within e 1 y) :
    Within e (k + 1) (x + y) := by
  have hle : nearest |value x + value y| ≤ (k + 1 : ℕ) * 2 ^ e := by
    rw [← nearest_mul_two_zpow hk he]
    refine nearest_mono_of_nonneg (abs_nonneg _) ?_
    calc
      |value x + value y| ≤ |value x| + |value y| := abs_add_le _ _
      _ = magnitude x + magnitude y := by rw [abs_value, abs_value]
      _ ≤ k * 2 ^ e + (1 : ℕ) * 2 ^ e := add_le_add hx.magnitude_le hy.magnitude_le
      _ = (k + 1 : ℕ) * 2 ^ e := by
        push_cast
        ring
  have hfinite := (isFinite_add_iff hx.isFinite hy.isFinite).mpr (hle.trans_lt hrange)
  refine ⟨hfinite, ?_⟩
  rw [(is_add hx.isFinite hy.isFinite hfinite).magnitude_eq]
  exact hle

theorem Within.foldl_add (he : -1074 ≤ e) (hk : k + xs.length < 2 ^ 53)
    (hrange : ((k + xs.length : ℕ) * 2 ^ e : ℚ) < 2 ^ (1024 : ℤ)) (hx : Within e k x)
    (h : ∀ y ∈ xs, Within e 1 y) : Within e (k + xs.length) (xs.foldl (· + ·) x) := by
  induction xs generalizing k x with
  | nil => exact hx
  | cons y ys ih =>
    obtain ⟨hy, hys⟩ := List.forall_mem_cons.mp h
    have hlength : k + (y :: ys).length = k + 1 + ys.length := by
      rw [List.length_cons]
      omega
    rw [hlength] at hk hrange ⊢
    have hstep : ((k + 1 : ℕ) * 2 ^ e : ℚ) ≤ (k + 1 + ys.length : ℕ) * 2 ^ e :=
      mul_le_mul_of_nonneg_right (by exact_mod_cast Nat.le_add_right _ _) (two_zpow_pos e).le
    exact ih hk hrange (hx.add he (by omega) (hstep.trans_lt hrange) hy) hys

theorem isFinite_sum (he : -1074 ≤ e) (hlength : xs.length < 2 ^ 53)
    (hrange : (xs.length * 2 ^ e : ℚ) < 2 ^ (1024 : ℤ)) (h : ∀ x ∈ xs, Within e 1 x) :
    (sum xs).isFinite = true := by
  have hzero : Within e 0 (-0.0) := by
    have hbits : significand (-0.0) = 0 := by decide +kernel
    refine ⟨by decide +kernel, ?_⟩
    rw [magnitude, hbits, Nat.cast_zero, zero_mul, zero_mul]
  have hfold := hzero.foldl_add he (by omega) (by rwa [zero_add]) h
  exact hfold.isFinite

/-! ### The median -/

/-- The sample in the middle, or half of the sum of the two next to it. -/
inductive IsMedian (xs : List Float) : Float → Prop where
  | one {x : Float} (hodd : xs.length % 2 = 1) (hx : (sort xs)[xs.length / 2]? = some x) :
    IsMedian xs x
  | two {a b : Float} (heven : xs.length % 2 = 0) (ha : (sort xs)[xs.length / 2 - 1]? = some a)
    (hb : (sort xs)[xs.length / 2]? = some b) : IsMedian xs ((a + b) / 2)

theorem isMedian_medianOfSorted (hxs : xs ≠ []) : IsMedian xs (medianOfSorted (sort xs)) := by
  have hpos := List.length_pos_iff.mpr hxs
  have hat {i : ℕ} (hi : i < xs.length) : (sort xs)[i]? = some ((sort xs).getD i 0) :=
    getElem?_mergeSort le hi 0
  unfold medianOfSorted
  rw [(perm_sort xs).length_eq]
  rcases Nat.mod_two_eq_zero_or_one xs.length with heven | hodd
  · dsimp only
    rw [if_neg (by omega)]
    exact .two heven (hat (by omega)) (hat (by omega))
  · dsimp only
    rw [if_pos hodd]
    exact .one hodd (hat (by omega))

theorem isFinite_half_iff : (x / 2).isFinite = true ↔ x.isFinite = true :=
  isFinite_div_ofNat_iff (n := 2) two_pos

theorem mem_of_getElem?_sort {i : ℕ} (h : (sort xs)[i]? = some x) : x ∈ xs :=
  (compares_le.hasRank h).mem

theorem le_of_middle (ha : (sort xs)[xs.length / 2 - 1]? = some a)
    (hb : (sort xs)[xs.length / 2]? = some b) : le a b = true :=
  compares_le.le_of_getElem? (Nat.sub_le _ _) ha hb

theorem IsMedian.between {m least greatest : Float} (hm : IsMedian xs m)
    (h : ∀ x ∈ xs, x.isFinite = true) (hleast : ∀ x ∈ xs, le least x = true)
    (hgreatest : ∀ x ∈ xs, le x greatest = true) (hfinite : m.isFinite = true) :
    le least m = true ∧ le m greatest = true := by
  cases hm with
  | one hodd hx =>
    have hmem := mem_of_getElem?_sort hx
    exact ⟨hleast _ hmem, hgreatest _ hmem⟩
  | two heven ha hb =>
    have hmem := mem_of_getElem?_sort ha
    have hmem' := mem_of_getElem?_sort hb
    obtain ⟨hlow, hhigh⟩ := le_half_add (h _ hmem) (h _ hmem') (le_of_middle ha hb)
      (isFinite_half_iff.mp hfinite)
    exact ⟨le_trans _ _ _ (hleast _ hmem) hlow, le_trans _ _ _ hhigh (hgreatest _ hmem')⟩

theorem IsMedian.isFinite {m : Float} (hm : IsMedian xs m) (he : -1074 ≤ e)
    (hrange : (xs.length * 2 ^ e : ℚ) < 2 ^ (1024 : ℤ)) (h : ∀ x ∈ xs, Within e 1 x) :
    m.isFinite = true := by
  cases hm with
  | one hodd hx => exact (h _ (mem_of_getElem?_sort hx)).isFinite
  | two heven ha hb =>
    have hpos := List.length_pos_of_mem (mem_of_getElem?_sort hb)
    have htwo : ((1 + 1 : ℕ) * 2 ^ e : ℚ) ≤ xs.length * 2 ^ e :=
      mul_le_mul_of_nonneg_right (by exact_mod_cast (by omega)) (two_zpow_pos e).le
    have hsum := (h _ (mem_of_getElem?_sort ha)).add he (by decide) (htwo.trans_lt hrange)
      (h _ (mem_of_getElem?_sort hb))
    exact isFinite_half_iff.mpr hsum.isFinite

/-! ### Both figures -/

/-- What holds of the median and the mean of finite samples. -/
structure Central (xs : List Float) (t : Statistics) : Prop where
  odd : xs.length % 2 = 1 →
    (sort xs)[xs.length / 2]? = some t.median ∧ t.median.isFinite = true
  even : xs.length % 2 = 0 → ∃ a b,
    (sort xs)[xs.length / 2 - 1]? = some a ∧ (sort xs)[xs.length / 2]? = some b ∧
      (t.median.isFinite = true ↔ (a + b).isFinite = true) ∧
      (t.median.isFinite = true → le a t.median = true ∧ le t.median b = true)
  isFinite_median_iff :
    t.median.isFinite = true ↔ le t.min t.median = true ∧ le t.median t.max = true
  numerically : t.median.isFinite = true → t.min ≤ t.median ∧ t.median ≤ t.max
  isFinite_mean_iff : t.mean.isFinite = true ↔ (sum (sort xs)).isFinite = true
  bounded {e : ℤ} : -1074 ≤ e → (∀ x ∈ xs, magnitude x ≤ 2 ^ e) → xs.length < 2 ^ 53 →
    (xs.length * 2 ^ e : ℚ) < 2 ^ (1024 : ℤ) → t.median.isFinite = true ∧ t.mean.isFinite = true

/-- Finite samples have a median between the two in the middle, if the sum of these is in the range,
and a finite mean, if the sum of all is. -/
theorem exists_central (hxs : xs ≠ []) (h : ∀ x ∈ xs, x.isFinite = true) :
    ∃ t, Statistics.of? xs = some t ∧ Central xs t := by
  refine ⟨_, Statistics.of?_eq hxs, ?_⟩
  have hsafe := compares_le.picksSafely hxs 0
  have hlength := (perm_sort xs).length_eq
  have hmin := h _ hsafe.least_mem
  have hmax := h _ hsafe.greatest_mem
  have hmean : (sum (sort xs) / Float.ofNat (sort xs).length).isFinite = true ↔
      (sum (sort xs)).isFinite = true :=
    isFinite_div_ofNat_iff (hlength.symm ▸ List.length_pos_iff.mpr hxs)
  have hm := isMedian_medianOfSorted hxs
  generalize medianOfSorted (sort xs) = m at hm ⊢
  have hbetween := hm.between h hsafe.least_le hsafe.le_greatest
  constructor
  case odd =>
    intro hodd
    cases hm with
    | one _ hx => exact ⟨hx, h _ (mem_of_getElem?_sort hx)⟩
    | two heven => omega
  case even =>
    intro heven
    cases hm with
    | one hodd => omega
    | two _ ha hb =>
      refine ⟨_, _, ha, hb, isFinite_half_iff, fun hfinite => ?_⟩
      exact le_half_add (h _ (mem_of_getElem?_sort ha)) (h _ (mem_of_getElem?_sort hb))
        (le_of_middle ha hb) (isFinite_half_iff.mp hfinite)
  case isFinite_median_iff =>
    constructor
    · exact hbetween
    · rintro ⟨hlow, hhigh⟩
      exact isFinite_of_le hmin hmax hlow hhigh
  case numerically =>
    intro hfinite
    obtain ⟨hlow, hhigh⟩ := hbetween hfinite
    exact ⟨(le_iff_value_le hmin hfinite).mpr (value_le_of_le hlow),
      (le_iff_value_le hfinite hmax).mpr (value_le_of_le hhigh)⟩
  case isFinite_mean_iff => exact hmean
  case bounded =>
    intro e he hbound hcount hrange
    have hwithin : ∀ x ∈ xs, Within e 1 x := by
      intro x hx
      refine ⟨h x hx, ?_⟩
      rw [Nat.cast_one, one_mul]
      exact hbound x hx
    refine ⟨hm.isFinite he hrange hwithin, hmean.mpr ?_⟩
    apply isFinite_sum he (hlength.trans_lt hcount) (hlength.symm ▸ hrange)
    intro x hx
    exact hwithin x ((perm_sort xs).mem_iff.mp hx)

theorem exists_central_three :
    ∃ t, Statistics.of? [3, 1, 2] = some t ∧ t.median = 2 ∧ t.min ≤ t.median ∧
      t.median ≤ t.max ∧ t.mean.isFinite = true := by
  have hfinite : ∀ x ∈ [(3 : Float), 1, 2], x.isFinite = true := by decide +kernel
  have hsort : sort [3, 1, 2] = [1, 2, 3] := sort_eq (by decide +kernel) (by decide +kernel)
  obtain ⟨t, ht, hcentral⟩ := exists_central (List.cons_ne_nil 3 [1, 2]) hfinite
  obtain ⟨hmedian, hmedianFinite⟩ := hcentral.odd rfl
  obtain ⟨hmin, hmax⟩ := hcentral.numerically hmedianFinite
  rw [hsort] at hmedian
  refine ⟨t, ht, (Option.some.inj hmedian).symm, hmin, hmax, ?_⟩
  rw [hcentral.isFinite_mean_iff, hsort]
  decide +kernel

/-- The sum of two large samples is beyond the range, and so are the figures. -/
theorem central_figures_overflow :
    (∀ x ∈ [(1e308 : Float), 1e308], x.isFinite = true) ∧
      ∃ t, Statistics.of? [1e308, 1e308] = some t ∧ t.median.isFinite = false ∧
        t.mean.isFinite = false ∧ ¬ t.median ≤ t.max := by
  refine ⟨by decide +kernel, _, Statistics.of?_eq (List.cons_ne_nil _ _), ?_⟩
  rw [sort_eq (.refl _) (by decide +kernel)]
  decide +kernel

end Sample

end LoadReport
