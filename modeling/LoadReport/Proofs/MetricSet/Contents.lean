import LoadReport.MetricSet
import LoadReport.Proofs.FirstAppearance
import Std.Data.HashMap.Lemmas

/-! # The contents of a set of series

The positions of a set lead to the series of their metrics, and pushing keeps it so. Hence the
series of a metric holds the points that were pushed under its name, and the names stand in the
order of their first push.
-/

namespace LoadReport.MetricSet

variable {m : MetricSet} {name n : String} {p : Point}

/-- Positions and series agree: a name has the position of the one series that carries it. -/
def Indexed (m : MetricSet) : Prop :=
  ∀ (name : String) (i : ℕ), m.position[name]? = some i ↔ ∃ s, m.series[i]? = some s ∧ s.name = name

def names (m : MetricSet) : List String := m.toList.map (·.name)

theorem indexed_empty : Indexed ∅ := by
  intro name i
  simp [EmptyCollection.emptyCollection, empty]

theorem Indexed.lt_size (h : m.Indexed) {i : ℕ} (hi : m.position[name]? = some i) :
    i < m.series.size := by
  obtain ⟨s, hs, _⟩ := (h name i).mp hi
  exact (Array.getElem?_eq_some_iff.mp hs).1

theorem Indexed.mem_names_iff (h : m.Indexed) :
    name ∈ m.names ↔ ∃ i, m.position[name]? = some i := by
  simp only [names, toList, List.mem_map, Array.mem_toList_iff, h name]
  constructor
  · rintro ⟨s, hs, hn⟩
    obtain ⟨i, hi⟩ := Array.getElem?_of_mem hs
    exact ⟨i, s, hi, hn⟩
  · rintro ⟨i, s, hs, hn⟩
    exact ⟨s, Array.mem_of_getElem? hs, hn⟩

theorem push_of_some {i : ℕ} (h : m.position[name]? = some i) :
    m.push name p =
      { m with series := m.series.modify i fun s => { s with points := s.points.push p } } := by
  simp [push, h]

theorem push_of_none (h : m.position[name]? = none) :
    m.push name p = ⟨m.series.push ⟨name, #[p]⟩, m.position.insert name m.series.size⟩ := by
  simp [push, h]

theorem Indexed.push (h : m.Indexed) (name : String) (p : Point) : (m.push name p).Indexed := by
  intro n j
  cases hp : m.position[name]? with
  | some i =>
    rw [push_of_some hp, h n j]
    simp only [Array.getElem?_modify]
    split_ifs with hij
    · cases m.series[j]? <;> simp
    · rfl
  | none =>
    rw [push_of_none hp]
    simp only [Std.HashMap.getElem?_insert, beq_iff_eq, Array.getElem?_push]
    by_cases hn : name = n
    · subst hn
      constructor
      · intro hj
        simp_all
      · rintro ⟨s, hs, hsn⟩
        by_cases hj : j = m.series.size
        · simp [hj]
        · have hpos := (h name j).mpr ⟨s, by simpa [hj] using hs, hsn⟩
          simp [hp] at hpos
    · rw [if_neg hn, h n j]
      by_cases hj : j = m.series.size
      · simp [hj, hn]
      · simp [hj]

theorem Indexed.points_push (h : m.Indexed) :
    (m.push name p).points n = if name = n then m.points n ++ [p] else m.points n := by
  cases hp : m.position[name]? with
  | some i =>
    obtain ⟨s, hs, rfl⟩ := (h name i).mp hp
    rw [push_of_some hp]
    simp only [points, get?]
    split_ifs with hn
    · subst hn
      simp [hp, hs, Array.getElem?_modify]
    · cases hq : m.position[n]? with
      | none => rfl
      | some j =>
        have hij : i ≠ j := by
          rintro rfl
          obtain ⟨t, ht, rfl⟩ := (h n i).mp hq
          exact hn (by rw [hs] at ht; rw [Option.some.inj ht])
        simp [Array.getElem?_modify, hij]
  | none =>
    rw [push_of_none hp]
    simp only [points, get?, Std.HashMap.getElem?_insert, beq_iff_eq]
    split_ifs with hn
    · subst hn
      simp [hp]
    · cases hq : m.position[n]? with
      | none => rfl
      | some j =>
        have hj := Nat.ne_of_lt (h.lt_size hq)
        simp [Array.getElem?_push, hj]

theorem Indexed.names_push (h : m.Indexed) :
    (m.push name p).names = if name ∈ m.names then m.names else m.names ++ [name] := by
  cases hp : m.position[name]? with
  | some i =>
    rw [push_of_some hp, if_pos (h.mem_names_iff.mpr ⟨i, hp⟩)]
    apply List.ext_getElem?
    intro j
    simp only [names, toList, List.getElem?_map, Array.getElem?_toList, Array.getElem?_modify]
    split_ifs <;> simp [Function.comp_def]
  | none =>
    have hn : name ∉ m.names := fun hn => by
      obtain ⟨i, hi⟩ := h.mem_names_iff.mp hn
      simp [hp] at hi
    rw [push_of_none hp, if_neg hn]
    simp [names, toList]

theorem totalPoints_eq (m : MetricSet) :
    m.totalPoints = (m.toList.flatMap (·.points.toList)).length := by
  rw [totalPoints, ← Array.foldl_toList, List.length_flatMap, List.sum_eq_foldl, List.foldl_map]
  simp [toList]

theorem Indexed.totalPoints_push (h : m.Indexed) (name : String) (p : Point) :
    (m.push name p).totalPoints = m.totalPoints + 1 := by
  simp only [totalPoints_eq, toList]
  cases hp : m.position[name]? with
  | some i =>
    obtain ⟨before, s, after, hsplit, -, hmodify⟩ := List.exists_of_modify
      (fun s : Series => { s with points := s.points.push p }) (l := m.series.toList) (h.lt_size hp)
    rw [push_of_some hp, Array.toList_modify, hmodify, hsplit]
    simp
    omega
  | none =>
    rw [push_of_none hp]
    simp

def ofPairs (ps : List (String × Point)) : MetricSet := ps.foldl (fun m e => m.push e.1 e.2) ∅

theorem ofPairs_concat (ps : List (String × Point)) (e : String × Point) :
    ofPairs (ps ++ [e]) = (ofPairs ps).push e.1 e.2 := by
  simp [ofPairs]

theorem indexed_ofPairs (ps : List (String × Point)) : (ofPairs ps).Indexed := by
  induction ps using List.reverseRecOn with
  | nil => exact indexed_empty
  | append_singleton ps e ih => exact ofPairs_concat ps e ▸ ih.push e.1 e.2

/-- A metric has the points pushed under its name, in the order of pushing. -/
theorem points_ofPairs (ps : List (String × Point)) (n : String) :
    (ofPairs ps).points n = (ps.filter (·.1 = n)).map (·.2) := by
  induction ps using List.reverseRecOn with
  | nil => simp [ofPairs, points, get?, EmptyCollection.emptyCollection, empty]
  | append_singleton ps e ih =>
    rw [ofPairs_concat, (indexed_ofPairs ps).points_push, ih, List.filter_append]
    by_cases he : e.1 = n <;> simp [he]

theorem totalPoints_ofPairs (ps : List (String × Point)) :
    (ofPairs ps).totalPoints = ps.length := by
  induction ps using List.reverseRecOn with
  | nil => rfl
  | append_singleton ps e ih =>
    rw [ofPairs_concat, (indexed_ofPairs ps).totalPoints_push, ih, List.length_append,
      List.length_singleton]

/-- The metrics stand in the order of their first push. -/
theorem names_ofPairs (ps : List (String × Point)) :
    (ofPairs ps).names = (ps.map (·.1)).eraseDups := by
  induction ps using List.reverseRecOn with
  | nil => rfl
  | append_singleton ps e ih =>
    rw [ofPairs_concat, (indexed_ofPairs ps).names_push, List.map_append, List.map_singleton,
      eraseDups_concat, ih]
    simp only [List.mem_eraseDups]

end LoadReport.MetricSet
