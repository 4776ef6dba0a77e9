import LoadReport.Proofs.MetricSet.Contents
import Mathlib.Data.Finset.Card

/-! # What a set of series stands for

A set that points were pushed into is told by the pushes alone: its series are the pushed metrics in
the order of their first push, each with its own points in the order of pushing. Every way to look
at the set agrees with that.
-/

namespace LoadReport.MetricSet

variable {m : MetricSet} {name : String} {ps : List (String × Point)}

/-- The points pushed under a name, in the order of pushing. -/
def pushed (ps : List (String × Point)) (name : String) : List Point :=
  (ps.filter (·.1 = name)).map (·.2)

/-- The pushed names in the order of their first push. -/
def pushedNames (ps : List (String × Point)) : List String := (ps.map (·.1)).eraseDups

theorem mem_pushedNames_iff : name ∈ pushedNames ps ↔ ∃ p, (name, p) ∈ ps := by
  simp [pushedNames]

theorem nodup_pushedNames (ps : List (String × Point)) : (pushedNames ps).Nodup :=
  nodup_eraseDups _

theorem pushedNames_eq_nil_iff : pushedNames ps = [] ↔ ps = [] := by
  constructor
  · intro h
    cases ps with
    | nil => rfl
    | cons e ps =>
      have he : e.1 ∈ pushedNames (e :: ps) := mem_pushedNames_iff.mpr ⟨e.2, List.mem_cons_self⟩
      simp [h] at he
  · rintro rfl
    rfl

/-- A position leads to the series of its metric, so that metric is the name of the series. -/
theorem Indexed.get?_eq_some_iff (h : m.Indexed) {s : Series} :
    m.get? name = some s ↔ s ∈ m.toList ∧ s.name = name := by
  rw [get?, Option.bind_eq_some_iff, toList, Array.mem_toList_iff]
  constructor
  · rintro ⟨i, hi, hs⟩
    obtain ⟨t, ht, hn⟩ := (h name i).mp hi
    obtain rfl : t = s := Option.some.inj (ht.symm.trans hs)
    exact ⟨Array.mem_of_getElem? hs, hn⟩
  · rintro ⟨hs, hn⟩
    obtain ⟨i, hi⟩ := Array.getElem?_of_mem hs
    exact ⟨i, (h name i).mpr ⟨s, hi, hn⟩, hi⟩

theorem Indexed.points_of_mem (h : m.Indexed) {s : Series} (hs : s ∈ m.toList) :
    m.points s.name = s.points.toList := by
  rw [points, h.get?_eq_some_iff.mpr ⟨hs, rfl⟩]
  rfl

/-- The set holds exactly the pushed points, and its positions lead to them. -/
structure Holds (m : MetricSet) (ps : List (String × Point)) : Prop where
  /-- A stored position is in bounds and holds the series of its name, and there is one for each
  series. -/
  position : ∀ name i, m.position[name]? = some i ↔
    ∃ h : i < m.series.size, m.series[i].name = name
  nodup : (m.toList.map (·.name)).Nodup
  toList : m.toList = (pushedNames ps).map fun name => ⟨name, (pushed ps name).toArray⟩
  get? : ∀ name, (m.get? name).isSome ↔ ∃ p, (name, p) ∈ ps
  points : ∀ name, m.points name = pushed ps name
  values : ∀ name, m.values name = (pushed ps name).map (·.value)
  size : m.size = (ps.map (·.1)).toFinset.card
  isEmpty : m.isEmpty ↔ ps = []
  totalPoints : m.totalPoints = ps.length

theorem toList_ofPairs (ps : List (String × Point)) :
    (ofPairs ps).toList = (pushedNames ps).map fun name => ⟨name, (pushed ps name).toArray⟩ := by
  have hnames : (ofPairs ps).toList.map (·.name) = pushedNames ps := names_ofPairs ps
  rw [← hnames, List.map_map]
  conv_lhs => rw [← List.map_id (ofPairs ps).toList]
  refine List.map_congr_left fun s hs => ?_
  have hpoints := (indexed_ofPairs ps).points_of_mem hs
  rw [points_ofPairs] at hpoints
  simp [pushed, hpoints]

/-- Whatever was pushed in whatever order, an empty set holds it afterwards. -/
theorem holds_ofPairs (ps : List (String × Point)) : (ofPairs ps).Holds ps := by
  have hindexed := indexed_ofPairs ps
  have hnames : (ofPairs ps).toList.map (·.name) = pushedNames ps := names_ofPairs ps
  have hsize : (ofPairs ps).size = (pushedNames ps).length := by
    rw [← hnames, List.length_map]
    rfl
  constructor
  case position =>
    intro name i
    rw [hindexed name i]
    simp [Array.getElem?_eq_some_iff]
  case nodup => exact hnames ▸ nodup_pushedNames ps
  case toList => exact toList_ofPairs ps
  case get? =>
    intro name
    rw [← mem_pushedNames_iff, ← hnames, List.mem_map, Option.isSome_iff_exists]
    exact exists_congr fun s => hindexed.get?_eq_some_iff
  case points => exact points_ofPairs ps
  case values =>
    intro name
    rw [MetricSet.values, points_ofPairs, pushed]
  case size =>
    rw [hsize, ← List.toFinset_card_of_nodup (nodup_pushedNames ps)]
    congr 1
    ext name
    simp [pushedNames]
  case isEmpty =>
    have h : (ofPairs ps).isEmpty ↔ (ofPairs ps).size = 0 := by
      simp [MetricSet.isEmpty, MetricSet.size]
    rw [h, hsize, List.length_eq_zero_iff, pushedNames_eq_nil_iff]
  case totalPoints => exact totalPoints_ofPairs ps

end LoadReport.MetricSet
