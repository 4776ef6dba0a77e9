import LoadReport.Proofs.Summary.Figures
import LoadReport.Report.Console
import LoadReport.Report.Html

/-! # The numbers in reports

The console report prints the figures of the whole run, the statistics of its durations, some of its
waiting times and some of the durations of each group. The page prints less of the same.
-/

namespace LoadReport.Report

variable {r : Run} {s : Settings} {groups : List (String × Group)} {name : String}

def rowFigures (t : Statistics) : List Float := [t.mean, t.p95, t.p99]

def groupFigures (groups : List (String × Group)) : List Float :=
  (groups.filterMap fun e => Statistics.of? e.2.durations.toList).flatMap rowFigures

/-- The numbers in the console report. Of these the percentage of failed requests is left out if
there are no requests. -/
def Console.figures (r : Run) (s : Settings) : List Float :=
  (Summary.of r s).figures ++
  ((Statistics.of? (r.metrics.values s.metrics.duration)).map Statistics.figures).getD [] ++
  ((Statistics.of? (r.metrics.values s.metrics.waiting)).map rowFigures).getD [] ++
  groupFigures (scenarios r.scenarios) ++
  groupFigures (products r.products)

/-- The numbers on the page. -/
def Html.figures (r : Run) (s : Settings) : List Float :=
  let durations := Statistics.of? (r.metrics.values s.metrics.duration)
  [(durations.map (·.mean)).getD 0, (durations.map (·.p95)).getD 0] ++
  groupFigures (scenarios r.scenarios)

theorem rowFigures_subset (t : Statistics) : rowFigures t ⊆ t.figures := by
  simp [rowFigures, Statistics.figures]

theorem isNaN_values (h : r.Bounded) :
    ∀ t ∈ Statistics.of? (r.metrics.values name), ∀ x ∈ t.figures, x.isNaN = false := by
  intro t ht
  refine Statistics.isNaN_of_mem_figures ht (List.forall_mem_map.mpr (h.points name)) ?_
  rw [MetricSet.values, List.length_map]
  exact h.length name

theorem isNaN_groupFigures (h : ∀ e ∈ groups, Group.Bounded e.2) :
    ∀ x ∈ groupFigures groups, x.isNaN = false := by
  intro x hx
  obtain ⟨t, ht, hx⟩ := List.mem_flatMap.mp hx
  obtain ⟨e, he, hstats⟩ := List.mem_filterMap.mp ht
  obtain ⟨hfinite, hlength⟩ := h e he
  exact Statistics.isNaN_of_mem_figures hstats hfinite hlength x (rowFigures_subset t hx)

theorem Console.isNaN_figures (h : r.Bounded) : ∀ x ∈ figures r s, x.isNaN = false := by
  have hproducts : ∀ e ∈ products r.products, Group.Bounded e.2 := fun e he =>
    h.products e (List.mem_mergeSort.mp he)
  simp only [figures, List.forall_mem_append]
  refine ⟨⟨⟨⟨Summary.isNaN_of_mem_figures h, ?_⟩, ?_⟩, isNaN_groupFigures h.scenarios⟩,
    isNaN_groupFigures hproducts⟩
  · cases ht : Statistics.of? (r.metrics.values s.metrics.duration) with
    | none => exact List.forall_mem_nil _
    | some t => exact isNaN_values h t ht
  · cases ht : Statistics.of? (r.metrics.values s.metrics.waiting) with
    | none => exact List.forall_mem_nil _
    | some t => exact fun x hx => isNaN_values h t ht x (rowFigures_subset t hx)

theorem Html.isNaN_figures (h : r.Bounded) : ∀ x ∈ figures r s, x.isNaN = false := by
  simp only [figures, List.forall_mem_append]
  refine ⟨?_, isNaN_groupFigures h.scenarios⟩
  cases ht : Statistics.of? (r.metrics.values s.metrics.duration) with
  | none => decide
  | some t =>
    have hfigures := isNaN_values h t ht
    simp only [Statistics.figures, List.forall_mem_cons] at hfigures
    obtain ⟨hmean, -, -, -, -, hp95, -⟩ := hfigures
    exact List.forall_mem_cons.mpr ⟨hmean, List.forall_mem_singleton.mpr hp95⟩

end LoadReport.Report
