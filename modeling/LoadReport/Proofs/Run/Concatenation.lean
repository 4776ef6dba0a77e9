import LoadReport.Proofs.Run.Contents

/-! # Concatenation of results files

The run of two files put together with a line feed between them is the run of the first followed by
that of the second: series and durations are joined, and what only the second file has comes after
all that the first one has.
-/

namespace LoadReport

namespace GroupTable

def durations (t : GroupTable) (k : String) : List Float :=
  ((t[k]?).map (·.durations.toList)).getD []

def count (t : GroupTable) (k : String) : ℕ := ((t[k]?).map (·.count)).getD 0

def firstSeen? (t : GroupTable) (k : String) : Option ℕ := (t[k]?).map (·.firstSeen)

/-- A table that continues the first of two tables with the second. A group that only the second has
comes after all groups of the first and after those groups that only the second has, too, and has
seen before it. -/
structure Joins (t t' u : GroupTable) : Prop where
  durations_eq : ∀ k, durations u k = durations t k ++ durations t' k
  count_eq : ∀ k, count u k = count t k + count t' k
  firstSeen_eq : ∀ k, firstSeen? u k =
    (firstSeen? t k).or ((firstSeen? t' k).map fun n =>
      t.size + t'.toList.countP fun e => e.1 ∉ t ∧ e.2.firstSeen < n)

variable {key k : String} {ps qs : List Point}

theorem durations_ofPoints : durations (ofPoints key ps) k = groupValues key k ps := by
  rw [durations, getElem?_ofPoints]
  split_ifs with hk
  · rfl
  · exact (groupValues_eq_nil_iff.mpr hk).symm

theorem count_ofPoints : count (ofPoints key ps) k = (groupValues key k ps).length := by
  rw [count, getElem?_ofPoints]
  split_ifs with hk
  · rfl
  · rw [groupValues_eq_nil_iff.mpr hk]
    rfl

theorem firstSeen?_ofPoints :
    firstSeen? (ofPoints key ps) k =
      if k ∈ groupKeys key ps then some ((groupKeys key ps).eraseDups.idxOf k) else none := by
  rw [firstSeen?, getElem?_ofPoints]
  split_ifs <;> rfl

theorem groupKeys_append : groupKeys key (ps ++ qs) = groupKeys key ps ++ groupKeys key qs := by
  simp [groupKeys]

theorem groupValues_append :
    groupValues key k (ps ++ qs) = groupValues key k ps ++ groupValues key k qs := by
  simp [groupValues]

/-- Among the tag values that `ps` lacks, the place of one in `qs` is the number of those that `qs`
has seen before it. -/
theorem idxOf_removeAll_eq_countP (hp : k ∉ groupKeys key ps) (hq : k ∈ groupKeys key qs) :
    ((groupKeys key qs).removeAll (groupKeys key ps)).eraseDups.idxOf k =
      (ofPoints key qs).toList.countP fun e =>
        e.1 ∉ ofPoints key ps ∧ e.2.firstSeen < (groupKeys key qs).eraseDups.idxOf k := by
  set l := (groupKeys key qs).eraseDups with hl
  have hr : ((groupKeys key qs).removeAll (groupKeys key ps)).eraseDups =
      l.filter fun v => !(groupKeys key ps).elem v := eraseDups_filter _ _
  have hlt : (l.filter fun v => !(groupKeys key ps).elem v).Pairwise (l.idxOf · < l.idxOf ·) :=
    (pairwise_idxOf (nodup_eraseDups _)).filter _
  have hk : k ∈ l.filter fun v => !(groupKeys key ps).elem v := by simp [hl, hp, hq]
  calc
    _ = l.countP fun v => v ∉ groupKeys key ps ∧ l.idxOf v < l.idxOf k := by
      rw [hr, idxOf_eq_countP hlt hk, List.countP_filter]
      exact List.countP_congr fun v _ => by simp [and_comm]
    _ = (l.map fun v => decide (v ∉ ofPoints key ps ∧ l.idxOf v < l.idxOf k)).countP id := by
      rw [List.countP_map]
      exact List.countP_congr fun v _ => by simp [mem_ofPoints]
    _ = _ := by
      rw [← (map_firstSeen_perm fun v n =>
        decide (v ∉ ofPoints key ps ∧ n < l.idxOf k)).countP_eq, List.countP_map]
      rfl

theorem joins_ofPoints :
    Joins (ofPoints key ps) (ofPoints key qs) (ofPoints key (ps ++ qs)) := by
  constructor
  case durations_eq =>
    intro k
    simp only [durations_ofPoints, groupValues_append]
  case count_eq =>
    intro k
    simp only [count_ofPoints, groupValues_append, List.length_append]
  case firstSeen_eq =>
    intro k
    simp only [firstSeen?_ofPoints, groupKeys_append, List.mem_append, List.eraseDups_append,
      List.idxOf_append, List.mem_eraseDups, size_ofPoints]
    by_cases hp : k ∈ groupKeys key ps
    · simp [hp]
    · by_cases hq : k ∈ groupKeys key qs
      · simp [hp, hq, idxOf_removeAll_eq_countP hp hq, Nat.add_comm]
      · simp [hp, hq]

end GroupTable

namespace Run

theorem lines_append (a b : List UInt8) : lines (a ++ 10 :: b) = lines a ++ lines b :=
  List.splitOnP_append_cons a b (beq_self_eq_true 10)

theorem observations_append (a b : List UInt8) :
    observations (a ++ 10 :: b) = observations a ++ observations b := by
  rw [observations, lines_append, List.filterMap_append]
  rfl

theorem names_append (s : Settings) (os os' : List Observation) :
    (ofObservations s (os ++ os')).metrics.names =
      (ofObservations s os).metrics.names ++
        (ofObservations s os').metrics.names.filter
          (· ∉ (ofObservations s os).metrics.names) := by
  simp only [names_ofObservations, List.map_append, List.eraseDups_append, List.mem_eraseDups]
  congr 1
  rw [List.removeAll, eraseDups_filter]
  exact List.filter_congr fun v _ => by rw [List.elem_eq_mem, decide_not]

/-- The run of two files with a line feed between them. -/
theorem ofBytes_append (s : Settings) (a b : List UInt8) :
    (∀ metric, (ofBytes s (a ++ 10 :: b)).metrics.points metric =
        (ofBytes s a).metrics.points metric ++ (ofBytes s b).metrics.points metric) ∧
      (ofBytes s (a ++ 10 :: b)).metrics.names =
        (ofBytes s a).metrics.names ++
          (ofBytes s b).metrics.names.filter (· ∉ (ofBytes s a).metrics.names) ∧
      GroupTable.Joins (ofBytes s a).scenarios (ofBytes s b).scenarios
        (ofBytes s (a ++ 10 :: b)).scenarios ∧
      GroupTable.Joins (ofBytes s a).products (ofBytes s b).products
        (ofBytes s (a ++ 10 :: b)).products := by
  have hpoints : ∀ metric, (ofBytes s (a ++ 10 :: b)).metrics.points metric =
      (ofBytes s a).metrics.points metric ++ (ofBytes s b).metrics.points metric := by
    intro metric
    simp only [points_ofBytes, observations_append, pointsOf_append]
  refine ⟨hpoints, ?_, ?_, ?_⟩
  · simp only [ofBytes, observations_append]
    exact names_append ..
  · rw [scenarios_ofBytes, scenarios_ofBytes, scenarios_ofBytes, hpoints]
    exact GroupTable.joins_ofPoints
  · rw [products_ofBytes, products_ofBytes, products_ofBytes, hpoints]
    exact GroupTable.joins_ofPoints

end Run

end LoadReport
