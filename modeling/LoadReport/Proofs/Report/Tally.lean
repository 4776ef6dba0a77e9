import LoadReport.Report.Console
import LoadReport.Report.Html
import LoadReport.Proofs.GroupTable.Contents
import LoadReport.Proofs.Report.ProductOrder
import LoadReport.Proofs.Sample.Order

/-! # Tallies

The rows of a table show a group only through its tally: the sorted durations and the count. Tallies
do not depend on the order of points, nor does the order of products if their numbers differ.
-/

namespace LoadReport.Report

variable {key : String} {ps qs : List Point} {t t' : GroupTable} {gs gs' : List (String × Group)}

def tally (g : Group) : List Float × ℕ := (Sample.sort g.durations.toList, g.count)

def tallies (gs : List (String × Group)) : List (String × List Float × ℕ) :=
  gs.map fun e => (e.1, tally e.2)

theorem tallies_toList : tallies t.toList = (t.map fun _ g => tally g).toList := by
  rw [Std.TreeMap.toList_map]
  rfl

theorem map_fst_tallies : (tallies t.toList).map (·.1) = t.keys := by
  rw [← Std.TreeMap.map_fst_toList_eq_keys, tallies, List.map_map]
  rfl

/-- Points in another order leave a table with the same tallies. -/
theorem tallies_ofPoints_eq_of_perm (h : ps.Perm qs) :
    tallies (GroupTable.ofPoints key ps).toList = tallies (GroupTable.ofPoints key qs).toList := by
  rw [tallies_toList, tallies_toList]
  refine (Std.TreeMap.Equiv.of_forall_constGet?_eq fun k => ?_).toList_eq
  have hk : k ∈ groupKeys key ps ↔ k ∈ groupKeys key qs := (h.filterMap _).mem_iff
  have hv : (groupValues key k ps).Perm (groupValues key k qs) := (h.filter _).map _
  simp only [Std.TreeMap.getElem?_map, GroupTable.getElem?_ofPoints, hk]
  split_ifs
  · simp [tally, Group.ofPoints, Sample.sort_eq_of_perm hv, hv.length_eq]
  · rfl

theorem isEmpty_eq_of_tallies (h : tallies t.toList = tallies t'.toList) :
    t.isEmpty = t'.isEmpty := by
  rw [← Std.TreeMap.isEmpty_toList, ← Std.TreeMap.isEmpty_toList]
  have hl := congrArg List.isEmpty h
  simpa [tallies, List.isEmpty_map] using hl

theorem of?_sort (xs : List Float) : Statistics.of? (Sample.sort xs) = Statistics.of? xs :=
  Statistics.of?_eq_of_perm (Sample.perm_sort xs)

theorem Console.rows_eq_of_tallies (h : tallies gs = tallies gs') : rows gs = rows gs' := by
  have he : ∀ gs, rows gs = (tallies gs).filterMap fun e =>
      (Statistics.of? e.2.1).map (Row.of e.1 e.2.2) := by
    intro gs
    simp only [rows, tallies, List.filterMap_map, Function.comp_def, tally, of?_sort]
  rw [he, he, h]

theorem Html.rows_eq_of_tallies (h : tallies gs = tallies gs') : rows gs = rows gs' := by
  have he : ∀ gs, rows gs = (tallies gs).filterMap fun e =>
      (Statistics.of? e.2.1).map fun s => Row.of e.1 s.count s := by
    intro gs
    simp only [rows, tallies, List.filterMap_map, Function.comp_def, tally, of?_sort]
  rw [he, he, h]

theorem pairwise_tallies_products (t : GroupTable) :
    (tallies (products t)).Pairwise fun a b => productNumber a.1 ≤ productNumber b.1 := by
  refine List.pairwise_map.mpr ((pairwise_products t).imp fun {a b} h => ?_)
  rcases productLE_iff.mp h with h | ⟨h, _⟩
  · exact Nat.le_of_lt h
  · exact Nat.le_of_eq h

/-- Products whose numbers differ stand in the same order in all tables with the same tallies. -/
theorem tallies_products_eq (h : tallies t.toList = tallies t'.toList)
    (hn : ∀ k ∈ t, ∀ l ∈ t, productNumber k = productNumber l → k = l) :
    tallies (products t) = tallies (products t') := by
  have hp : (tallies (products t)).Perm (tallies t.toList) := (perm_products t).map _
  have hp' : (tallies (products t')).Perm (tallies t.toList) := h ▸ (perm_products t').map _
  have hnodup : ((tallies t.toList).map (·.1)).Nodup := map_fst_tallies ▸ GroupTable.nodup_keys t
  have hmem : ∀ a ∈ tallies t.toList, a.1 ∈ t := fun a ha => by
    rw [← Std.TreeMap.mem_keys, ← map_fst_tallies]
    exact List.mem_map_of_mem ha
  refine List.Perm.eq_of_pairwise (fun a b ha hb hab hba => ?_) (pairwise_tallies_products t)
    (pairwise_tallies_products t') (hp.trans hp'.symm)
  have ha' := hp.mem_iff.mp ha
  have hb' := hp'.mem_iff.mp hb
  exact List.inj_on_of_nodup_map hnodup ha' hb'
    (hn _ (hmem a ha') _ (hmem b hb') (Nat.le_antisymm hab hba))

end LoadReport.Report
