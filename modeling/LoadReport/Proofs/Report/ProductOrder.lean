import LoadReport.Report.Order
import LoadReport.Proofs.Digit
import LoadReport.Proofs.GroupTable.Contents
import LoadReport.Proofs.Utf8.Encoding

/-! # The order of products

Products are compared by their numbers and then by first appearance, and the report lists them in
ascending order. The sort is stable, and before it they stand in the order of their ids.
-/

namespace LoadReport.Report

variable {a b c : String × Group} {t : GroupTable}

theorem number?_significantDigits (id : String) :
    Digit.number? (significantDigits id) = some (productNumber id) := by
  rw [significantDigits, productNumber]
  split_ifs with h
  · obtain ⟨n, hn⟩ := Digit.number?_eq_some_of_all h
    rw [Digit.number?_dropWhile_zero, hn]
    rfl
  · rw [Digit.number?_eq_none h]
    rfl

theorem head?_significantDigits (id : String) : (significantDigits id).head? ≠ some '0' := by
  rw [significantDigits]
  split_ifs
  · intro h
    have hzero := List.head?_dropWhile_not (fun c : Char => decide (c = '0')) id.toList
    rw [h] at hzero
    simp at hzero
  · exact Option.some_ne_none _ |>.symm

/-- Comparing significant digits is comparing numbers. -/
theorem compareIds_eq (a b : String) :
    compareIds a b = compare (productNumber a) (productNumber b) :=
  Digit.compare_length_then (number?_significantDigits a) (number?_significantDigits b)
    (head?_significantDigits a) (head?_significantDigits b)

example : compareIds "0010" "9" = .gt := by decide

theorem productLE_iff :
    productLE a b = true ↔ productNumber a.1 < productNumber b.1 ∨
      productNumber a.1 = productNumber b.1 ∧ a.2.firstSeen ≤ b.2.firstSeen := by
  rw [productLE, compareIds_eq, Ordering.isLE_then_iff_or, Nat.compare_eq_lt, Nat.compare_eq_eq,
    Nat.isLE_compare]

theorem productLE_trans (a b c : String × Group) (hab : productLE a b) (hbc : productLE b c) :
    productLE a c := by
  rw [productLE_iff] at *
  omega

theorem productLE_total (a b : String × Group) : productLE a b || productLE b a := by
  rw [Bool.or_eq_true, productLE_iff, productLE_iff]
  omega

theorem pairwise_products (t : GroupTable) :
    (products t).Pairwise fun a b => productLE a b = true :=
  List.pairwise_mergeSort productLE_trans productLE_total _

theorem perm_products (t : GroupTable) : (products t).Perm t.toList := List.mergeSort_perm _ _

/-- A stable sort keeps the order of what it does not tell apart. -/
theorem pairwise_mergeSort_of_pairwise {α : Type*} {le : α → α → Bool} {r : α → α → Prop}
    {l : List α} (trans : ∀ a b c, le a b → le b c → le a c) (total : ∀ a b, le a b || le b a)
    (h : l.Pairwise r) : (l.mergeSort le).Pairwise fun a b => le a b ∧ (le b a → r a b) := by
  -- The sort is that of the elements with their places, where no two are the same.
  have hperm : (l.zipIdx.mergeSort (List.zipIdxLE le)).Perm l.zipIdx := List.mergeSort_perm _ _
  have hplaces : (l.zipIdx.mergeSort (List.zipIdxLE le)).Pairwise fun a b => a.2 ≠ b.2 := by
    rw [← List.pairwise_map, ← List.Nodup, (hperm.map _).nodup_iff, List.zipIdx_map_snd]
    exact List.nodup_range'
  have hsorted : (l.zipIdx.mergeSort (List.zipIdxLE le)).Pairwise fun a b => List.zipIdxLE le a b :=
    List.pairwise_mergeSort (List.zipIdxLE_trans trans) (List.zipIdxLE_total total) _
  have hget : ∀ {a : α × ℕ}, a ∈ l.zipIdx.mergeSort (List.zipIdxLE le) →
      ∃ h : a.2 < l.length, l[a.2] = a.1 := fun h =>
    List.getElem?_eq_some_iff.mp (List.mem_zipIdx_iff_getElem?.mp (hperm.mem_iff.mp h))
  rw [← List.mergeSort_zipIdx, List.pairwise_map]
  refine (hplaces.and hsorted).imp_of_mem fun {a b} ha hb ⟨hne, hle⟩ => ?_
  obtain ⟨hi, ha⟩ := hget ha
  obtain ⟨hj, hb⟩ := hget hb
  rw [List.zipIdxLE] at hle
  split_ifs at hle with hab hba
  · have hij : a.2 < b.2 := Nat.lt_of_le_of_ne (of_decide_eq_true hle) hne
    have hr := List.pairwise_iff_getElem.mp h _ _ hi hj hij
    rw [ha, hb] at hr
    exact ⟨hab, fun _ => hr⟩
  · exact ⟨hab, fun h => absurd h hba⟩

/-- By number, by first appearance, and by the bytes of the id where both tie. -/
def Precedes (a b : String × Group) : Prop :=
  productNumber a.1 < productNumber b.1 ∨
    productNumber a.1 = productNumber b.1 ∧
      (a.2.firstSeen < b.2.firstSeen ∨
        a.2.firstSeen = b.2.firstSeen ∧ Utf8.encode a.1 < Utf8.encode b.1)

theorem pairwise_precedes (t : GroupTable) : (products t).Pairwise Precedes := by
  refine (pairwise_mergeSort_of_pairwise productLE_trans productLE_total
    (GroupTable.pairwise_toList t)).imp fun {a b} ⟨hle, hties⟩ => ?_
  rw [Precedes]
  rcases productLE_iff.mp hle with hnumber | ⟨hnumber, hseen⟩
  · exact .inl hnumber
  · rcases Nat.lt_or_eq_of_le hseen with hlt | heq
    · exact .inr ⟨hnumber, .inl hlt⟩
    · have hba : productLE b a = true :=
        productLE_iff.mpr (.inr ⟨hnumber.symm, Nat.le_of_eq heq.symm⟩)
      exact .inr ⟨hnumber, .inr ⟨heq, Utf8.encode_lt_encode (hties hba)⟩⟩

end LoadReport.Report
