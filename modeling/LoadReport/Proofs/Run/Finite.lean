import LoadReport.Proofs.Json.Finite
import LoadReport.Proofs.MetricSet.Representation
import LoadReport.Proofs.Run.Contents

/-! # Runs hold finite values

A file gives finite values to its points, and the durations of a group are values of points.
-/

namespace LoadReport

open Json

variable {s : Settings} {bytes : List UInt8} {key : String} {ps : List Point}

namespace Observation

variable {data v : Json} {o : Observation} {line : List UInt8}

theorem isFinite_value (h : data.AllFinite) : (value data).isFinite = true := by
  unfold value
  cases hn : (data.member? "value").bind Json.number? with
  | none => decide
  | some n =>
    obtain ⟨u, hu, hn⟩ := Option.bind_eq_some_iff.mp hn
    exact (h.member? hu).number? hn

theorem isFinite_ofJson? (h : v.AllFinite) (ho : ofJson? v = some o) :
    o.point.value.isFinite = true := by
  simp only [ofJson?, Option.bind_eq_bind, Option.bind_eq_some_iff,
    Option.ite_none_right_eq_some, Option.pure_def] at ho
  obtain ⟨_, -, _, -, -, _, -, _, -, data, hdata, _, -, he⟩ := ho
  rw [← Option.some.inj he]
  exact isFinite_value (h.member? hdata)

theorem isFinite_ofLine? (h : ofLine? line = some o) : o.point.value.isFinite = true := by
  unfold ofLine? at h
  split_ifs at h
  simp only [Option.bind_eq_bind, Option.bind_eq_some_iff] at h
  obtain ⟨cs, -, v, hv, ho⟩ := h
  exact isFinite_ofJson? (allFinite_parse? hv) ho

end Observation

/-- All durations of a group are finite, and a machine word counts them. -/
structure Group.Bounded (g : Group) : Prop where
  durations : ∀ x ∈ g.durations.toList, x.isFinite = true
  length : g.durations.toList.length < 2 ^ 64

namespace Run

/-- All values in a run are finite, and a machine word counts its points. -/
structure Bounded (r : Run) : Prop where
  points : ∀ name, ∀ p ∈ r.metrics.points name, p.value.isFinite = true
  length : ∀ name, (r.metrics.points name).length < 2 ^ 64
  scenarios : ∀ e ∈ r.scenarios.toList, e.2.Bounded
  products : ∀ e ∈ r.products.toList, e.2.Bounded

theorem totalPoints_ofBytes :
    (ofBytes s bytes).metrics.totalPoints = (observations bytes).length := by
  rw [ofBytes, metrics_ofObservations, (MetricSet.holds_ofPairs _).totalPoints, List.length_map]

theorem isFinite_points_ofBytes (name : String) :
    ∀ p ∈ (ofBytes s bytes).metrics.points name, p.value.isFinite = true := by
  rw [points_ofBytes]
  intro p hp
  obtain ⟨o, ho, rfl⟩ := List.mem_map.mp hp
  obtain ⟨line, -, hline⟩ := List.mem_filterMap.mp (List.mem_filter.mp ho).1
  exact Observation.isFinite_ofLine? hline

theorem length_points_ofBytes_le (name : String) :
    ((ofBytes s bytes).metrics.points name).length ≤ (ofBytes s bytes).metrics.totalPoints := by
  rw [points_ofBytes, totalPoints_ofBytes, pointsOf, List.length_map]
  exact List.length_filter_le _ _

theorem bounded_groups (h : ∀ p ∈ ps, p.value.isFinite = true) (hlen : ps.length < 2 ^ 64) :
    ∀ e ∈ (GroupTable.ofPoints key ps).toList, e.2.Bounded := by
  intro e he
  rw [(GroupTable.mem_toList_ofPoints he).2]
  constructor
  case durations =>
    intro x hx
    obtain ⟨p, hp, rfl⟩ := List.mem_map.mp hx
    exact h p (List.mem_filter.mp hp).1
  case length =>
    have hle : (groupValues key e.1 ps).length ≤ ps.length := by
      rw [groupValues, List.length_map]
      exact List.length_filter_le _ _
    exact hle.trans_lt hlen

theorem bounded_ofBytes (h : (ofBytes s bytes).metrics.totalPoints < 2 ^ 64) :
    (ofBytes s bytes).Bounded := by
  have hpoints (name : String) :
      ∀ p ∈ (ofBytes s bytes).metrics.points name, p.value.isFinite = true :=
    isFinite_points_ofBytes name
  have hlength (name : String) : ((ofBytes s bytes).metrics.points name).length < 2 ^ 64 :=
    (length_points_ofBytes_le name).trans_lt h
  constructor
  case points => exact hpoints
  case length => exact hlength
  case scenarios =>
    rw [scenarios_ofBytes]
    exact bounded_groups (hpoints _) (hlength _)
  case products =>
    rw [products_ofBytes]
    exact bounded_groups (hpoints _) (hlength _)

end Run

end LoadReport
