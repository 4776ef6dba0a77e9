import LoadReport.Proofs.Binary64.Scaling
import LoadReport.Proofs.Sample.Ranked

/-! # Percentiles

The rank of a percentile is computed with floats: a product and a quotient, each rounded, and a
whole part. Rounding keeps the order of ranks, and as long as the product is a float it does not
change a rank. The rank is capped, so a percentile is one of the samples whatever is asked for.
-/

namespace LoadReport

open Binary64

namespace Sample

variable {α : Type} {le : α → α → Bool} {xs : List α} {n p : ℕ} {a b : Float}

/-- The rank of a percentile in whole numbers. -/
def exactRank (n p : ℕ) : ℕ := min (n * p / 100) (n - 1)

theorem percentileRank_lt (hn : 0 < n) (a : Float) : percentileRank n a < n := by
  unfold percentileRank
  omega

theorem percentileRank_of_low (h : Low a.toModel.unpack) : percentileRank n a = 0 := by
  rcases n.eq_zero_or_pos with rfl | hn
  · exact Nat.min_zero _
  · have hword := toUInt64_scale_of_low (high_ofNat hn) is_hundred (by norm_num) h
    rw [percentileRank, hword]
    exact Nat.zero_min _

theorem percentileRank_mono (h : a ≤ b) : percentileRank n a ≤ percentileRank n b := by
  rcases n.eq_zero_or_pos with rfl | hn
  · exact (Nat.min_zero _).le.trans (Nat.zero_le _)
  · exact min_le_min_right _
      (toUInt64_scale_mono (high_ofNat hn) is_hundred (by norm_num) (positiveLE_of_le h))

/-- The rank is exact as long as the product is a float. A factor 0 makes the rank 0, however many
samples there are. -/
theorem percentileRank_ofNat (hp : p ≤ 100) (h : n * p ≤ 2 ^ 53) :
    percentileRank n (Float.ofNat p) = exactRank n p := by
  rcases p.eq_zero_or_pos with rfl | hpos
  · have hlow : Low (Float.ofNat 0).toModel.unpack := by
      rw [show Float.ofNat 0 = 0 from rfl, unpack_zero]
      exact .zero _
    rw [percentileRank_of_low hlow, exactRank, Nat.mul_zero, Nat.zero_div, Nat.zero_min]
  · have hn : n ≤ 2 ^ 53 := (Nat.le_mul_of_pos_right n hpos).trans h
    rw [percentileRank, toUInt64_hundredths hn (hp.trans (by norm_num)) h, exactRank]

/-! ### Picking samples -/

section Pick

variable (le)

/-- The percentile of samples in an order; `percentile` and `BitPattern.percentile` are instances.
-/
def pick (zero : α) (xs : List α) (a : Float) : α :=
  (xs.mergeSort le).getD (percentileRank (xs.mergeSort le).length a) zero

theorem getElem?_mergeSort {i : ℕ} (hi : i < xs.length) (zero : α) :
    (xs.mergeSort le)[i]? = some ((xs.mergeSort le).getD i zero) := by
  have hlt : i < (xs.mergeSort le).length := (List.length_mergeSort xs).symm ▸ hi
  rw [List.getD_eq_getElem?_getD, List.getElem?_eq_getElem hlt]
  rfl

theorem getElem?_pick (hxs : xs ≠ []) (zero : α) (a : Float) :
    (xs.mergeSort le)[percentileRank xs.length a]? = some (pick le zero xs a) := by
  rw [getElem?_mergeSort le (percentileRank_lt (List.length_pos_iff.mpr hxs) a) zero, pick,
    List.length_mergeSort]

theorem exists_getElem?_mergeSort {x : α} (hx : x ∈ xs) :
    ∃ i < xs.length, (xs.mergeSort le)[i]? = some x := by
  obtain ⟨i, hi, hix⟩ := List.mem_iff_getElem.mp (List.mem_mergeSort.mpr hx)
  exact ⟨i, List.length_mergeSort xs ▸ hi, List.getElem?_eq_some_iff.mpr ⟨hi, hix⟩⟩

end Pick

/-- What can be relied on for percentiles, for whatever float they are asked. -/
structure PicksSafely (le : α → α → Bool) (xs : List α) (least greatest : α)
    (percentile : Float → α) : Prop where
  inBounds (a : Float) : (xs.mergeSort le)[percentileRank xs.length a]? = some (percentile a)
  mem (a : Float) : percentile a ∈ xs
  mono {a b : Float} : a ≤ b → le (percentile a) (percentile b) = true
  of_isNaN {a : Float} : a.isNaN = true → percentile a = least
  of_nonpos {a : Float} : a ≤ 0 → percentile a = least
  of_hundred_le {a : Float} : xs.length * 100 ≤ 2 ^ 53 → 100 ≤ a → percentile a = greatest
  least_mem : least ∈ xs
  least_le : ∀ x ∈ xs, le least x = true
  greatest_mem : greatest ∈ xs
  le_greatest : ∀ x ∈ xs, le x greatest = true

theorem Compares.picksSafely (h : Compares le) (hxs : xs ≠ []) (zero : α) :
    PicksSafely le xs ((xs.mergeSort le).getD 0 zero)
      ((xs.mergeSort le).getD ((xs.mergeSort le).length - 1) zero) (pick le zero xs) := by
  have hpos := List.length_pos_iff.mpr hxs
  have hlast : xs.length - 1 < xs.length := Nat.sub_one_lt_of_lt hpos
  have hfirstAt := getElem?_mergeSort le hpos zero
  have hlastAt := getElem?_mergeSort le hlast zero
  have hpick (a : Float) := getElem?_pick le hxs zero a
  have hlow {a : Float} (ha : Low a.toModel.unpack) :
      pick le zero xs a = (xs.mergeSort le).getD 0 zero := by
    rw [pick, percentileRank_of_low ha]
  rw [List.length_mergeSort]
  constructor
  case inBounds => exact hpick
  case mem =>
    intro a
    exact (h.hasRank (hpick a)).mem
  case mono =>
    intro a b hab
    exact h.le_of_getElem? (percentileRank_mono hab) (hpick a) (hpick b)
  case of_isNaN =>
    intro a ha
    exact hlow (low_of_isNaN ha)
  case of_nonpos =>
    intro a ha
    exact hlow (low_of_nonpos ha)
  case of_hundred_le =>
    intro a hlength ha
    have hrank := percentileRank_ofNat (n := xs.length) (p := 100) le_rfl hlength
    have hmono := percentileRank_mono (n := xs.length) (a := Float.ofNat 100) ha
    have hlt := percentileRank_lt hpos a
    unfold exactRank at hrank
    have hequal : percentileRank xs.length a = xs.length - 1 := by omega
    rw [pick, List.length_mergeSort, hequal]
  case least_mem => exact (h.hasRank hfirstAt).mem
  case least_le =>
    intro x hx
    obtain ⟨i, -, hix⟩ := exists_getElem?_mergeSort le hx
    exact h.le_of_getElem? (Nat.zero_le i) hfirstAt hix
  case greatest_mem => exact (h.hasRank hlastAt).mem
  case le_greatest =>
    intro x hx
    obtain ⟨i, hi, hix⟩ := exists_getElem?_mergeSort le hx
    exact h.le_of_getElem? (Nat.le_sub_one_of_lt hi) hix hlastAt

theorem PicksSafely.isChain {least greatest : α} {percentile : Float → α}
    (h : PicksSafely le xs least greatest percentile) :
    [least, percentile 90, percentile 95, percentile 99, greatest].IsChain (le · · = true) := by
  have hfirst : (90 : Float) ≤ 95 := by decide +kernel
  have hsecond : (95 : Float) ≤ 99 := by decide +kernel
  refine .cons_cons (h.least_le _ (h.mem _)) ?_
  refine .cons_cons (h.mono hfirst) ?_
  refine .cons_cons (h.mono hsecond) ?_
  exact .cons_cons (h.le_greatest _ (h.mem _)) (.singleton _)

end Sample

namespace Statistics

variable {xs : List Float}

theorem of?_eq (h : xs ≠ []) : of? xs = some {
    count := (Sample.sort xs).length
    min := (Sample.sort xs).getD 0 0
    max := (Sample.sort xs).getD ((Sample.sort xs).length - 1) 0
    mean := Sample.sum (Sample.sort xs) / Float.ofNat (Sample.sort xs).length
    median := Sample.medianOfSorted (Sample.sort xs)
    p90 := percentile xs 90
    p95 := percentile xs 95
    p99 := percentile xs 99 } := by
  have hlength : (Sample.sort xs).length ≠ 0 := by
    rw [(Sample.perm_sort xs).length_eq]
    exact (List.length_pos_iff.mpr h).ne'
  exact if_neg hlength

end Statistics

open Sample

variable {n p : ℕ} {xs : List Float} {bs : List UInt64}

/-- A whole percentage picks the sample of the rank that whole numbers give, and the percentiles
among the statistics are such. The same goes for any bit patterns, where NaN is not one sample, and
for those of floats it is the same percentile. -/
theorem hasRank_percentile (hn : 0 < n) (hp : p ≤ 100) (h : n * p ≤ 2 ^ 53) :
    (∀ xs : List Float, xs.length = n →
      HasRank Sample.le xs (exactRank n p) (percentile xs (Float.ofNat p)) ∧
        ∃ t, Statistics.of? xs = some t ∧ t.p90 = percentile xs (Float.ofNat 90) ∧
          t.p95 = percentile xs (Float.ofNat 95) ∧ t.p99 = percentile xs (Float.ofNat 99)) ∧
      (∀ bs : List UInt64, bs.length = n →
        HasRank BitPattern.le bs (exactRank n p) (BitPattern.percentile bs (Float.ofNat p))) ∧
      ∀ xs : List Float, BitPattern.percentile (xs.map Float.toBits) (Float.ofNat p) =
        (percentile xs (Float.ofNat p)).toBits := by
  have hrank := percentileRank_ofNat hp h
  refine ⟨?_, ?_, fun xs => BitPattern.percentile_toBits xs _⟩
  · rintro xs rfl
    have hxs := List.length_pos_iff.mp hn
    refine ⟨compares_le.hasRank ?_, _, Statistics.of?_eq hxs, rfl, rfl, rfl⟩
    rw [← hrank]
    exact getElem?_pick _ hxs 0 _
  · rintro bs rfl
    apply BitPattern.compares_le.hasRank
    rw [← hrank]
    exact getElem?_pick _ (List.length_pos_iff.mp hn) 0 _

theorem hasRank_percentile_ninety :
    4 * 90 ≤ 2 ^ 53 ∧ HasRank Sample.le [40, 10, 30, 20] 3 (percentile [40, 10, 30, 20] 90) :=
  ⟨by norm_num, ((hasRank_percentile (n := 4) (p := 90) (by decide) (by decide) (by norm_num)).1
    [40, 10, 30, 20] rfl).1⟩

/-- Percentiles are picked safely whatever the samples and the percentages are, and the percentiles
among the statistics come in order between the least and the greatest sample. The same goes for any
bit patterns, and for those of floats these are the same percentiles. -/
theorem picksSafely_percentile (hxs : xs ≠ []) (hbs : bs ≠ []) :
    (∃ t, Statistics.of? xs = some t ∧ PicksSafely Sample.le xs t.min t.max (percentile xs) ∧
      [t.min, t.p90, t.p95, t.p99, t.max].IsChain (Sample.le · · = true)) ∧
    (∃ least greatest, PicksSafely BitPattern.le bs least greatest (BitPattern.percentile bs) ∧
      [least, BitPattern.percentile bs 90, BitPattern.percentile bs 95, BitPattern.percentile bs 99,
        greatest].IsChain (BitPattern.le · · = true)) ∧
    ∀ a, BitPattern.percentile (xs.map Float.toBits) a = (percentile xs a).toBits := by
  refine ⟨?_, ?_, BitPattern.percentile_toBits xs⟩
  · have hsafe := compares_le.picksSafely hxs 0
    exact ⟨_, Statistics.of?_eq hxs, hsafe, hsafe.isChain⟩
  · have hsafe := BitPattern.compares_le.picksSafely hbs 0
    exact ⟨_, _, hsafe, hsafe.isChain⟩

theorem picksSafely_percentile_nan :
    ∃ t, Statistics.of? [2, 0.0 / 0.0, -1] = some t ∧ t.min = -1 ∧ t.max = 0.0 / 0.0 ∧
      percentile [2, 0.0 / 0.0, -1] (0.0 / 0.0) = t.min ∧
      percentile [2, 0.0 / 0.0, -1] (-5) = t.min ∧
      percentile [2, 0.0 / 0.0, -1] 50 = 2 ∧
      percentile [2, 0.0 / 0.0, -1] 1e300 = t.max ∧
      Sample.le (percentile [2, 0.0 / 0.0, -1] 50) (percentile [2, 0.0 / 0.0, -1] 60) = true := by
  have hnan : (0.0 / 0.0 : Float).isNaN = true := by decide +kernel
  have hsort : [2, 0.0 / 0.0, -1].mergeSort Sample.le = [-1, 2, 0.0 / 0.0] :=
    sort_eq (by decide +kernel) (by decide +kernel)
  obtain ⟨⟨t, ht, hsafe, -⟩, -⟩ := picksSafely_percentile
    (List.cons_ne_nil 2 [0.0 / 0.0, -1]) (List.cons_ne_nil 0xfff8000000000001 [])
  have hpick {k : ℕ} {a x : Float} (hk : percentileRank 3 a = k)
      (hx : [-1, 2, 0.0 / 0.0][k]? = some x) : percentile [2, 0.0 / 0.0, -1] a = x := by
    rw [← hk, ← hsort] at hx
    exact Option.some.inj ((hsafe.inBounds a).symm.trans hx)
  have hmin := hsafe.of_isNaN hnan
  have hmax := hsafe.of_hundred_le (a := 1e300) (by norm_num) (by decide +kernel)
  refine ⟨t, ht, ?_, ?_, hmin, hsafe.of_nonpos (by decide +kernel), ?_, hmax,
    hsafe.mono (by decide +kernel)⟩
  · rw [← hmin]
    exact hpick (k := 0) (by decide +kernel) rfl
  · rw [← hmax]
    exact hpick (k := 2) (by decide +kernel) rfl
  · exact hpick (k := 1) (by decide +kernel) rfl

end LoadReport
