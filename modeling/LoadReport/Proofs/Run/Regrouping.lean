import LoadReport.Proofs.Run.Contents
import Mathlib.Data.Finset.Card

/-! # Groups are recomputable

The group tables of a results file hold nothing that its duration series does not: which values of
a tag occur, the durations of each, and where each appears first.
-/

namespace LoadReport

/-- The place of the first point that carries a value of a tag. -/
def firstAt (key k : String) (ps : List Point) : ℕ := ps.findIdx (·.tag? key = some k)

/-- A table of groups agrees with the points it stands for. -/
structure GroupTable.Regroups (t : GroupTable) (key : String) (ps : List Point) : Prop where
  mem_iff : ∀ k, k ∈ t ↔ k ≠ "" ∧ ∃ p ∈ ps, p.tag? key = some k
  durations_eq : ∀ (k : String) (g : Group), t[k]? = some g →
    g.durations.toList = (ps.filter (·.tag? key = some k)).map (·.value)
  durations_ne_nil : ∀ (k : String) (g : Group), t[k]? = some g → g.durations.toList ≠ []
  count_eq : ∀ (k : String) (g : Group), t[k]? = some g → g.count = g.durations.size
  /-- The tag values that appear before `k` for the first time. -/
  firstSeen_eq : ∀ (k : String) (g : Group), t[k]? = some g →
    g.firstSeen = {v ∈ (groupKeys key ps).toFinset | firstAt key v ps < firstAt key k ps}.card
  firstSeen_perm : (t.toList.map (·.2.firstSeen)).Perm (List.range t.size)

namespace GroupTable

variable {key k : String} {ps : List Point} {p : Point}

theorem mem_groupKeys_iff : k ∈ groupKeys key ps ↔ k ≠ "" ∧ ∃ p ∈ ps, p.tag? key = some k := by
  simp only [groupKeys, List.mem_filterMap, Point.groupKey?_eq_some_iff]
  constructor
  · rintro ⟨p, hp, hk, ht⟩
    exact ⟨hk, p, hp, ht⟩
  · rintro ⟨hk, p, hp, ht⟩
    exact ⟨p, hp, hk, ht⟩

theorem groupValues_eq (hk : k ≠ "") :
    groupValues key k ps = (ps.filter (·.tag? key = some k)).map (·.value) := by
  simp only [groupValues, Point.groupKey?_eq_some_iff, hk, ne_eq, not_false_eq_true, true_and]

theorem firstAt_eq (hk : k ≠ "") : firstAt key k ps = ps.findIdx (·.groupKey? key = some k) := by
  simp only [firstAt, Point.groupKey?_eq_some_iff, hk, ne_eq, not_false_eq_true, true_and]

/-- First appearance in the list of tag values is first appearance among the points. -/
theorem pairwise_firstAt :
    (groupKeys key ps).eraseDups.Pairwise (firstAt key · ps < firstAt key · ps) := by
  have hne : ∀ {k}, k ∈ (groupKeys key ps).eraseDups → k ≠ "" := fun h =>
    (mem_groupKeys_iff.mp (List.mem_eraseDups.mp h)).1
  exact (pairwise_findIdx (·.groupKey? key) ps).imp_of_mem fun {a b} ha hb hlt => by
    rwa [firstAt_eq (hne ha), firstAt_eq (hne hb)]

theorem idxOf_eq_card (hk : k ∈ groupKeys key ps) :
    (groupKeys key ps).eraseDups.idxOf k =
      {v ∈ (groupKeys key ps).toFinset | firstAt key v ps < firstAt key k ps}.card := by
  have hf : {v ∈ (groupKeys key ps).toFinset | firstAt key v ps < firstAt key k ps} =
      ((groupKeys key ps).eraseDups.filter
        (fun v => firstAt key v ps < firstAt key k ps)).toFinset := by
    ext v
    simp
  rw [hf, List.toFinset_card_of_nodup ((nodup_eraseDups _).filter _),
    idxOf_eq_countP pairwise_firstAt (List.mem_eraseDups.mpr hk), List.countP_eq_length_filter]

theorem regroups_ofPoints : Regroups (ofPoints key ps) key ps := by
  have hg : ∀ {k : String} {g : Group}, (ofPoints key ps)[k]? = some g →
      k ∈ groupKeys key ps ∧ g = Group.ofPoints key k ps := fun h => by
    rw [getElem?_ofPoints] at h
    split_ifs at h with hk
    exact ⟨hk, (Option.some.inj h).symm⟩
  constructor
  case mem_iff => exact fun k => mem_ofPoints.trans mem_groupKeys_iff
  case durations_eq =>
    intro k g h
    obtain ⟨hk, rfl⟩ := hg h
    exact groupValues_eq (mem_groupKeys_iff.mp hk).1
  case durations_ne_nil =>
    intro k g h
    obtain ⟨hk, rfl⟩ := hg h
    exact fun hn => groupValues_eq_nil_iff.mp hn hk
  case count_eq =>
    intro k g h
    obtain ⟨_, rfl⟩ := hg h
    rfl
  case firstSeen_eq =>
    intro k g h
    obtain ⟨hk, rfl⟩ := hg h
    exact idxOf_eq_card hk
  case firstSeen_perm =>
    rw [size_ofPoints, ← map_idxOf (nodup_eraseDups _)]
    exact map_firstSeen_perm fun _ n => n

end GroupTable

/-- Both tables of a results file agree with its own duration series, and its series are the same
whatever the settings. -/
theorem Run.regroups_ofBytes (s : Settings) (bytes : List UInt8) :
    GroupTable.Regroups (ofBytes s bytes).scenarios s.tags.scenario
        ((ofBytes s bytes).metrics.points s.metrics.duration) ∧
      GroupTable.Regroups (ofBytes s bytes).products s.tags.product
        ((ofBytes s bytes).metrics.points s.metrics.duration) ∧
      ∀ s', (ofBytes s' bytes).metrics = (ofBytes s bytes).metrics := by
  refine ⟨?_, ?_, fun s' => metrics_ofBytes_eq s' s⟩
  · rw [scenarios_ofBytes]
    exact GroupTable.regroups_ofPoints
  · rw [products_ofBytes]
    exact GroupTable.regroups_ofPoints

end LoadReport
