import LoadReport.Proofs.Report.Tally
import LoadReport.Proofs.Run.Concatenation

/-! # Reordering of lines

The lines of a results file in another order leave the same points in every series and the same
tallies in both tables; only the order of points and of first appearance changes.
-/

namespace LoadReport.Run

open Report

variable {s : Settings}

/-- The bytes of some lines with a line feed between any two of them. -/
def unlines (ls : List (List UInt8)) : List UInt8 := [10].intercalate ls

theorem observations_unlines (ls : List (List UInt8)) :
    observations (unlines ls) = ls.flatMap observations := by
  induction ls with
  | nil => rfl
  | cons l ls ih =>
    cases ls with
    | nil => simp [unlines]
    | cons l' ls =>
      have hu : unlines (l :: l' :: ls) = l ++ 10 :: unlines (l' :: ls) := by
        simp [unlines, List.intercalate_cons_cons]
      rw [hu, observations_append, ih]
      rfl

/-- The second run has the points and the tallies of the first. -/
structure Reordered (r r' : Run) : Prop where
  points : ∀ metric, (r.metrics.points metric).Perm (r'.metrics.points metric)
  scenarios : tallies r.scenarios.toList = tallies r'.scenarios.toList
  products : tallies r.products.toList = tallies r'.products.toList

theorem Reordered.values {r r' : Run} (h : Reordered r r') (metric : String) :
    (r.metrics.values metric).Perm (r'.metrics.values metric) :=
  (h.points metric).map _

theorem reordered_unlines {ls ls' : List (List UInt8)} (h : ls.Perm ls') :
    Reordered (ofBytes s (unlines ls)) (ofBytes s (unlines ls')) := by
  have hpoints : ∀ metric, ((ofBytes s (unlines ls)).metrics.points metric).Perm
      ((ofBytes s (unlines ls')).metrics.points metric) := by
    intro metric
    rw [points_ofBytes, points_ofBytes, observations_unlines, observations_unlines]
    exact ((h.flatMap_right _).filter _).map _
  constructor
  case points => exact hpoints
  case scenarios =>
    rw [scenarios_ofBytes, scenarios_ofBytes]
    exact tallies_ofPoints_eq_of_perm (hpoints _)
  case products =>
    rw [products_ofBytes, products_ofBytes]
    exact tallies_ofPoints_eq_of_perm (hpoints _)

end LoadReport.Run
