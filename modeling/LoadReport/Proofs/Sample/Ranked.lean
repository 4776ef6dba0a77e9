import LoadReport.Proofs.Sample.Order
import Mathlib.Data.Nat.Basic

/-! # Samples by rank

A sample of rank `k` has `k` other samples on its lower side and the rest on its upper side, equal
ones on either. Sorting puts it in place `k`, counted from 0.

The order of floats only reads their bits, so it is an order of all patterns of 64 bits. There NaN
is not one sample but many, some above all numbers and some below.
-/

namespace LoadReport

namespace Sample

variable {α : Type} {le : α → α → Bool} {xs : List α} {x : α} {i j k : ℕ}

structure Compares (le : α → α → Bool) : Prop where
  trans (x y z : α) : le x y = true → le y z = true → le x z = true
  total (x y : α) : (le x y || le y x) = true

structure HasRank (le : α → α → Bool) (xs : List α) (k : ℕ) (x : α) : Prop where
  getElem?_eq : (xs.mergeSort le)[k]? = some x
  mem : x ∈ xs
  lower : k + 1 ≤ xs.countP (le · x)
  upper : xs.length - k ≤ xs.countP (le x ·)

theorem compares_le : Compares Sample.le := ⟨le_trans, le_total⟩

theorem Compares.refl (h : Compares le) (x : α) : le x x = true := by
  have htotal := h.total x x
  rwa [Bool.or_self] at htotal

theorem Compares.le_of_getElem? (h : Compares le) {y : α} (hij : i ≤ j)
    (hx : (xs.mergeSort le)[i]? = some x) (hy : (xs.mergeSort le)[j]? = some y) :
    le x y = true := by
  obtain ⟨hi, rfl⟩ := List.getElem?_eq_some_iff.mp hx
  obtain ⟨hj, rfl⟩ := List.getElem?_eq_some_iff.mp hy
  rcases hij.lt_or_eq with hlt | rfl
  · have hpairwise := List.pairwise_mergeSort h.trans h.total xs
    exact List.pairwise_iff_getElem.mp hpairwise i j hi hj hlt
  · exact h.refl _

/-- The first `k + 1` sorted samples are not above the one in place `k`, and those from there on
are not below it. -/
theorem Compares.hasRank (h : Compares le) (hx : (xs.mergeSort le)[k]? = some x) :
    HasRank le xs k x := by
  have hperm := List.mergeSort_perm xs le
  obtain ⟨hk, -⟩ := List.getElem?_eq_some_iff.mp hx
  constructor
  case getElem?_eq => exact hx
  case mem => exact hperm.mem_iff.mp (List.mem_of_getElem? hx)
  case lower =>
    have hall : ((xs.mergeSort le).take (k + 1)).countP (le · x) = k + 1 := by
      have hlength : ((xs.mergeSort le).take (k + 1)).length = k + 1 :=
        List.length_take_of_le hk
      refine (List.countP_eq_length.mpr fun y hy => ?_).trans hlength
      obtain ⟨i, hi, hiy⟩ := List.mem_take_iff_getElem.mp hy
      exact h.le_of_getElem? (by omega) (List.getElem?_eq_some_iff.mpr ⟨_, hiy⟩) hx
    calc
      k + 1 = ((xs.mergeSort le).take (k + 1)).countP (le · x) := hall.symm
      _ ≤ (xs.mergeSort le).countP (le · x) := (List.take_sublist _ _).countP_le
      _ = xs.countP (le · x) := hperm.countP_eq _
  case upper =>
    have hall : ((xs.mergeSort le).drop k).countP (le x ·) = xs.length - k := by
      have hlength : ((xs.mergeSort le).drop k).length = xs.length - k := by
        rw [List.length_drop, hperm.length_eq]
      refine (List.countP_eq_length.mpr fun y hy => ?_).trans hlength
      obtain ⟨i, hi, hiy⟩ := List.mem_drop_iff_getElem.mp hy
      exact h.le_of_getElem? (by omega) hx (List.getElem?_eq_some_iff.mpr ⟨_, hiy⟩)
    calc
      xs.length - k = ((xs.mergeSort le).drop k).countP (le x ·) := hall.symm
      _ ≤ (xs.mergeSort le).countP (le x ·) := (List.drop_sublist _ _).countP_le
      _ = xs.countP (le x ·) := hperm.countP_eq _

end Sample

namespace BitPattern

def rank (b : UInt64) : UInt64 := if b < 0x8000000000000000 then b + 0x8000000000000000 else ~~~b

def le (a b : UInt64) : Bool := rank a ≤ rank b

def percentile (bs : List UInt64) (p : Float) : UInt64 :=
  (bs.mergeSort le).getD (Sample.percentileRank (bs.mergeSort le).length p) 0

theorem compares_le : Sample.Compares le where
  trans a b c hab hbc := by
    simp only [le, decide_eq_true_eq] at *
    exact UInt64.le_trans hab hbc
  total a b := by
    simp only [le, Bool.or_eq_true, decide_eq_true_eq]
    exact UInt64.le_total _ _

theorem le_toBits (x y : Float) : le x.toBits y.toBits = Sample.le x y := rfl

/-- On patterns that are floats, percentiles of patterns are those of the floats. -/
theorem percentile_toBits (xs : List Float) (p : Float) :
    percentile (xs.map Float.toBits) p = (LoadReport.percentile xs p).toBits := by
  have hzero : (0 : UInt64) = Float.toBits 0 := by decide +kernel
  have hle : ∀ x ∈ xs, ∀ y ∈ xs, Sample.le x y = le x.toBits y.toBits :=
    fun x _ y _ => (le_toBits x y).symm
  have hsort : (xs.map Float.toBits).mergeSort le = (Sample.sort xs).map Float.toBits :=
    (List.map_mergeSort hle).symm
  rw [percentile, hsort, List.length_map, LoadReport.percentile, Sample.percentileOfSorted,
    List.getD_eq_getElem?_getD, List.getD_eq_getElem?_getD, List.getElem?_map, hzero]
  exact Option.getD_map ..

end BitPattern

end LoadReport
