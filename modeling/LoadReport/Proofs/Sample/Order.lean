import LoadReport.Statistics
import Mathlib.Algebra.Group.Nat.Defs
import Mathlib.Data.List.Sort

/-! # The total order of samples

Ranks tell all samples apart, so sorting leaves one list for all orders in which samples may come.
The statistics see their samples only sorted.
-/

namespace LoadReport

namespace Sample

theorem toBits_injective : Function.Injective Float.toBits := by
  rintro ⟨⟨a, ha⟩⟩ ⟨⟨b, hb⟩⟩ h
  obtain rfl : a = b := h
  rfl

theorem toNat_rank (x : Float) :
    (rank x).toNat =
      if x.toBits.toNat < 2 ^ 63 then x.toBits.toNat + 2 ^ 63
      else 2 ^ 64 - 1 - x.toBits.toNat := by
  have htop : (0x8000000000000000 : UInt64).toNat = 2 ^ 63 := rfl
  simp only [rank, UInt64.lt_iff_toNat_lt, htop]
  split_ifs with h
  · rw [UInt64.toNat_add, htop, Nat.mod_eq_of_lt (by omega)]
  · exact UInt64.toNat_not _

theorem rank_injective : Function.Injective rank := by
  intro x y h
  have hr := congrArg UInt64.toNat h
  have hx := x.toBits.toNat_lt
  have hy := y.toBits.toNat_lt
  rw [toNat_rank, toNat_rank] at hr
  apply toBits_injective
  apply UInt64.toNat_inj.mp
  split_ifs at hr <;> omega

theorem le_iff {x y : Float} : le x y = true ↔ rank x ≤ rank y := by simp [le]

theorem le_trans (x y z : Float) (hxy : le x y) (hyz : le y z) : le x z :=
  le_iff.mpr (UInt64.le_trans (le_iff.mp hxy) (le_iff.mp hyz))

theorem le_total (x y : Float) : le x y || le y x := by
  rw [Bool.or_eq_true, le_iff, le_iff]
  exact UInt64.le_total _ _

theorem le_antisymm {x y : Float} (hxy : le x y) (hyx : le y x) : x = y :=
  rank_injective (UInt64.le_antisymm (le_iff.mp hxy) (le_iff.mp hyx))

theorem pairwise_sort (xs : List Float) : (sort xs).Pairwise fun x y => le x y = true :=
  List.pairwise_mergeSort le_trans le_total xs

theorem perm_sort (xs : List Float) : (sort xs).Perm xs := List.mergeSort_perm xs le

/-- Samples sort to the same list in whatever order they come. -/
theorem sort_eq_of_perm {xs ys : List Float} (h : xs.Perm ys) : sort xs = sort ys :=
  List.Perm.eq_of_pairwise (fun _ _ _ _ => le_antisymm) (pairwise_sort xs) (pairwise_sort ys)
    ((perm_sort xs).trans (h.trans (perm_sort ys).symm))

theorem sort_eq {xs ys : List Float} (h : xs.Perm ys)
    (hys : ys.Pairwise fun x y => le x y = true) : sort xs = ys := by
  rw [sort_eq_of_perm h]
  exact List.mergeSort_of_pairwise hys

end Sample

theorem Statistics.of?_eq_of_perm {xs ys : List Float} (h : xs.Perm ys) : of? xs = of? ys := by
  simp only [of?, Sample.sort_eq_of_perm h]

theorem Statistics.count_of? {xs : List Float} {s : Statistics} (h : of? xs = some s) :
    s.count = xs.length := by
  rw [of?] at h
  split_ifs at h
  rw [← Option.some.inj h]
  exact (Sample.perm_sort xs).length_eq

theorem Statistics.isSome_of? {xs : List Float} : (of? xs).isSome ↔ xs ≠ [] := by
  simp [of?, (Sample.perm_sort xs).length_eq]

end LoadReport
