import LoadReport.Proofs.GroupTable.Contents
import LoadReport.Proofs.MetricSet.Contents

/-! # The contents of a run

A run is told by its observations in three steps that do not depend on each other: the series hold
all observations, and each table of groups holds the points of the duration series.
-/

namespace LoadReport.Run

variable {s : Settings} {os : List Observation} {bytes : List UInt8}

/-- The points of one metric among observations. -/
def pointsOf (metric : String) (os : List Observation) : List Point :=
  (os.filter (·.metric = metric)).map (·.point)

theorem metrics_record (r : Run) (o : Observation) :
    (record s r o).metrics = r.metrics.push o.metric o.point := by
  unfold record
  split_ifs <;> rfl

theorem scenarios_record (r : Run) (o : Observation) :
    (record s r o).scenarios =
      if o.metric = s.metrics.duration then group s.tags.scenario o.point r.scenarios
      else r.scenarios := by
  unfold record
  split_ifs <;> rfl

theorem products_record (r : Run) (o : Observation) :
    (record s r o).products =
      if o.metric = s.metrics.duration then group s.tags.product o.point r.products
      else r.products := by
  unfold record
  split_ifs <;> rfl

theorem ofObservations_concat (o : Observation) :
    ofObservations s (os ++ [o]) = record s (ofObservations s os) o := by
  simp [ofObservations]

theorem pointsOf_append (metric : String) (os os' : List Observation) :
    pointsOf metric (os ++ os') = pointsOf metric os ++ pointsOf metric os' := by
  simp [pointsOf]

theorem pointsOf_concat (metric : String) (o : Observation) :
    pointsOf metric (os ++ [o]) =
      if o.metric = metric then pointsOf metric os ++ [o.point] else pointsOf metric os := by
  by_cases h : o.metric = metric <;> simp [pointsOf, h]

theorem metrics_ofObservations :
    (ofObservations s os).metrics = MetricSet.ofPairs (os.map fun o => (o.metric, o.point)) := by
  induction os using List.reverseRecOn with
  | nil => rfl
  | append_singleton os o ih =>
    rw [ofObservations_concat, metrics_record, ih, List.map_append, List.map_singleton,
      MetricSet.ofPairs_concat]

theorem points_ofObservations (metric : String) :
    (ofObservations s os).metrics.points metric = pointsOf metric os := by
  rw [metrics_ofObservations, MetricSet.points_ofPairs, List.filter_map, List.map_map]
  rfl

theorem names_ofObservations :
    (ofObservations s os).metrics.names = (os.map (·.metric)).eraseDups := by
  rw [metrics_ofObservations, MetricSet.names_ofPairs, List.map_map]
  rfl

/-- A table that each observation of the duration metric is grouped into has their points. -/
theorem table_ofObservations {table : Run → GroupTable} {key : String} (hempty : table {} = ∅)
    (hrecord : ∀ (r : Run) (o : Observation), table (record s r o) =
      if o.metric = s.metrics.duration then group key o.point (table r) else table r) :
    table (ofObservations s os) = GroupTable.ofPoints key (pointsOf s.metrics.duration os) := by
  induction os using List.reverseRecOn with
  | nil => exact hempty
  | append_singleton os o ih =>
    rw [ofObservations_concat, hrecord, pointsOf_concat, ih]
    split_ifs
    · simp [GroupTable.ofPoints]
    · rfl

theorem points_ofBytes (metric : String) :
    (ofBytes s bytes).metrics.points metric = pointsOf metric (observations bytes) :=
  points_ofObservations metric

theorem scenarios_ofBytes :
    (ofBytes s bytes).scenarios =
      GroupTable.ofPoints s.tags.scenario
        ((ofBytes s bytes).metrics.points s.metrics.duration) := by
  rw [points_ofBytes]
  exact table_ofObservations rfl scenarios_record

theorem products_ofBytes :
    (ofBytes s bytes).products =
      GroupTable.ofPoints s.tags.product
        ((ofBytes s bytes).metrics.points s.metrics.duration) := by
  rw [points_ofBytes]
  exact table_ofObservations rfl products_record

/-- The series of a file do not depend on the settings. -/
theorem metrics_ofBytes_eq (s s' : Settings) :
    (ofBytes s bytes).metrics = (ofBytes s' bytes).metrics := by
  rw [ofBytes, ofBytes, metrics_ofObservations, metrics_ofObservations]

end LoadReport.Run
