import LoadReport.Proofs.Binary64.NaN
import LoadReport.Proofs.Sample.Order

/-! # Statistics of finite samples

A sum of finite samples may overflow, but then it stays infinite: no sample is infinite itself, so
the opposite infinity never joins it. All other statistics pick samples or divide by a positive
number.
-/

namespace LoadReport

open Binary64

variable {xs : List Float}

namespace Sample

theorem isNaN_foldl_add {x : Float} (hx : x.isNaN = false) (h : ∀ y ∈ xs, y.isFinite = true) :
    (xs.foldl (· + ·) x).isNaN = false := by
  induction xs generalizing x with
  | nil => exact hx
  | cons y ys ih =>
    obtain ⟨hy, hys⟩ := List.forall_mem_cons.mp h
    exact ih (isNaN_add hx hy) hys

theorem isNaN_sum (h : ∀ x ∈ xs, x.isFinite = true) : (sum xs).isNaN = false :=
  isNaN_foldl_add (by decide) h

theorem isFinite_getD (h : ∀ x ∈ xs, x.isFinite = true) (i : ℕ) :
    (xs.getD i 0).isFinite = true := by
  rw [List.getD_eq_getElem?_getD]
  cases hi : xs[i]? with
  | none => decide
  | some x => exact h x (List.mem_of_getElem? hi)

theorem isNaN_medianOfSorted (h : ∀ x ∈ xs, x.isFinite = true) :
    (medianOfSorted xs).isNaN = false := by
  have hat (i : ℕ) := isNaN_of_isFinite (isFinite_getD h i)
  unfold medianOfSorted
  dsimp only
  split_ifs
  · exact hat _
  · exact isNaN_div (isNaN_add (hat _) (isFinite_getD h _)) (is_ofNat_of_small (by decide))
      (by norm_num)

theorem isNaN_percentileOfSorted (h : ∀ x ∈ xs, x.isFinite = true) (p : Float) :
    (percentileOfSorted xs p).isNaN = false :=
  isNaN_of_isFinite (isFinite_getD h _)

end Sample

namespace Statistics

def figures (t : Statistics) : List Float :=
  [t.mean, t.median, t.min, t.max, t.p90, t.p95, t.p99]

/-- No statistics of finite samples are NaN. -/
theorem isNaN_of_mem_figures {t : Statistics} (ht : of? xs = some t)
    (h : ∀ x ∈ xs, x.isFinite = true) (hlen : xs.length < 2 ^ 64) :
    ∀ x ∈ t.figures, x.isNaN = false := by
  have hperm := Sample.perm_sort xs
  have hsorted : ∀ x ∈ Sample.sort xs, x.isFinite = true := fun x hx => h x (hperm.mem_iff.mp hx)
  rw [of?] at ht
  split_ifs at ht with hne
  obtain rfl := Option.some.inj ht
  have hmean :
      (Sample.sum (Sample.sort xs) / Float.ofNat (Sample.sort xs).length).isNaN = false := by
    have hpos : (2 : ℚ) ^ (0 : ℤ) ≤ (Sample.sort xs).length := by
      exact_mod_cast Nat.pos_of_ne_zero hne
    exact isNaN_div (Sample.isNaN_sum hsorted) (is_ofNat_of_lt (hperm.length_eq.trans_lt hlen))
      ((two_zpow_pos 0).trans_le (two_zpow_le_nearest (by decide) hpos))
  have hat (i : ℕ) := isNaN_of_isFinite (Sample.isFinite_getD hsorted i)
  simp only [figures, List.forall_mem_cons]
  exact ⟨hmean, Sample.isNaN_medianOfSorted hsorted, hat _, hat _,
    Sample.isNaN_percentileOfSorted hsorted _, Sample.isNaN_percentileOfSorted hsorted _,
    Sample.isNaN_percentileOfSorted hsorted _, List.forall_mem_nil _⟩

end Statistics

end LoadReport
