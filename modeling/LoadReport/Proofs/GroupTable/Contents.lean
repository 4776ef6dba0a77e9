import LoadReport.Run
import LoadReport.Proofs.FirstAppearance
import Std.Data.TreeMap.Lemmas

/-! # The contents of a table of groups

The table that a sequence of points leaves behind, told without the table: a value of the tag has a
group if some point carries it, the group holds the values of these points in their order, and its
place is that of the tag value in the order of first appearance.
-/

namespace LoadReport

/-- The value of a tag by which a point is grouped. -/
def Point.groupKey? (p : Point) (key : String) : Option String := (p.tag? key).filter (· ≠ "")

theorem Point.groupKey?_eq_some_iff {p : Point} {key k : String} :
    p.groupKey? key = some k ↔ k ≠ "" ∧ p.tag? key = some k := by
  simp [groupKey?, Option.filter_eq_some_iff, and_comm]

def groupKeys (key : String) (ps : List Point) : List String := ps.filterMap (·.groupKey? key)

def groupValues (key k : String) (ps : List Point) : List Float :=
  (ps.filter (·.groupKey? key = some k)).map (·.value)

def Group.ofPoints (key k : String) (ps : List Point) : Group where
  durations := (groupValues key k ps).toArray
  count := (groupValues key k ps).length
  firstSeen := (groupKeys key ps).eraseDups.idxOf k

namespace GroupTable

variable {t : GroupTable} {key k v : String} {ps : List Point} {p : Point}

theorem getElem?_record (x : Float) :
    (t.record v x)[k]? =
      if v = k then some ((t.getD v ⟨#[], 0, t.size⟩).push x) else t[k]? := by
  simp [record, Std.TreeMap.getElem?_insert]

theorem mem_record {x : Float} : k ∈ t.record v x ↔ v = k ∨ k ∈ t := by
  simp [record, Std.TreeMap.mem_insert]

theorem size_record (x : Float) : (t.record v x).size = if v ∈ t then t.size else t.size + 1 := by
  simp [record, Std.TreeMap.size_insert]

/-- The table of some points after grouping each. -/
def ofPoints (key : String) (ps : List Point) : GroupTable :=
  ps.foldl (fun t p => Run.group key p t) ∅

theorem ofPoints_concat_of_none (h : p.groupKey? key = none) :
    ofPoints key (ps ++ [p]) = ofPoints key ps := by
  simp only [ofPoints, List.foldl_append, List.foldl_cons, List.foldl_nil, Run.group]
  cases ht : p.tag? key with
  | none => rfl
  | some v =>
    have hv : v = "" := by simpa [Point.groupKey?, ht, Option.filter] using h
    simp [hv]

theorem ofPoints_concat_of_some (h : p.groupKey? key = some v) :
    ofPoints key (ps ++ [p]) = (ofPoints key ps).record v p.value := by
  obtain ⟨hv, ht⟩ := Point.groupKey?_eq_some_iff.mp h
  simp [ofPoints, Run.group, ht, hv]

theorem groupKeys_concat_of_none (h : p.groupKey? key = none) :
    groupKeys key (ps ++ [p]) = groupKeys key ps := by
  simp [groupKeys, h]

theorem groupKeys_concat_of_some (h : p.groupKey? key = some v) :
    groupKeys key (ps ++ [p]) = groupKeys key ps ++ [v] := by
  simp [groupKeys, h]

theorem groupValues_concat :
    groupValues key k (ps ++ [p]) =
      if p.groupKey? key = some k then groupValues key k ps ++ [p.value]
      else groupValues key k ps := by
  by_cases h : p.groupKey? key = some k <;> simp [groupValues, h]

theorem groupValues_eq_nil_iff : groupValues key k ps = [] ↔ k ∉ groupKeys key ps := by
  simp [groupValues, groupKeys]

theorem mem_ofPoints : k ∈ ofPoints key ps ↔ k ∈ groupKeys key ps := by
  induction ps using List.reverseRecOn with
  | nil => simp [ofPoints, groupKeys]
  | append_singleton ps p ih =>
    cases h : p.groupKey? key with
    | none => rw [ofPoints_concat_of_none h, groupKeys_concat_of_none h, ih]
    | some v =>
      rw [ofPoints_concat_of_some h, groupKeys_concat_of_some h, mem_record, ih]
      simp [or_comm, eq_comm]

theorem size_ofPoints : (ofPoints key ps).size = (groupKeys key ps).eraseDups.length := by
  induction ps using List.reverseRecOn with
  | nil => rfl
  | append_singleton ps p ih =>
    cases h : p.groupKey? key with
    | none => rw [ofPoints_concat_of_none h, groupKeys_concat_of_none h, ih]
    | some v =>
      rw [ofPoints_concat_of_some h, groupKeys_concat_of_some h, size_record, eraseDups_concat, ih]
      simp only [mem_ofPoints]
      split_ifs <;> simp

theorem group_concat_of_ne (hp : p.groupKey? key ≠ some k) (hk : k ∈ groupKeys key ps) :
    Group.ofPoints key k (ps ++ [p]) = Group.ofPoints key k ps := by
  have hf : (groupKeys key (ps ++ [p])).eraseDups.idxOf k =
      (groupKeys key ps).eraseDups.idxOf k := by
    cases h : p.groupKey? key with
    | none => rw [groupKeys_concat_of_none h]
    | some v =>
      rw [groupKeys_concat_of_some h, eraseDups_concat]
      split_ifs
      · rfl
      · simp [List.idxOf_append, hk]
  simp only [Group.ofPoints, groupValues_concat, if_neg hp, hf]

theorem group_concat_of_eq (hp : p.groupKey? key = some k) :
    Group.ofPoints key k (ps ++ [p]) =
      (if k ∈ groupKeys key ps then Group.ofPoints key k ps
        else ⟨#[], 0, (groupKeys key ps).eraseDups.length⟩ : Group).push p.value := by
  simp only [Group.ofPoints, groupValues_concat, if_pos hp, groupKeys_concat_of_some hp,
    eraseDups_concat, Group.push]
  split_ifs with hk
  · simp
  · have hn : groupValues key k ps = [] := groupValues_eq_nil_iff.mpr hk
    simp [hn, List.idxOf_append, hk]

/-- The table of some points has the group of a tag value exactly if it occurs. -/
theorem getElem?_ofPoints :
    (ofPoints key ps)[k]? =
      if k ∈ groupKeys key ps then some (Group.ofPoints key k ps) else none := by
  induction ps using List.reverseRecOn with
  | nil => simp [ofPoints, groupKeys]
  | append_singleton ps p ih =>
    cases h : p.groupKey? key with
    | none =>
      rw [ofPoints_concat_of_none h, groupKeys_concat_of_none h, ih]
      split_ifs with hk
      · rw [group_concat_of_ne (by simp [h]) hk]
      · rfl
    | some v =>
      rw [ofPoints_concat_of_some h, groupKeys_concat_of_some h, getElem?_record]
      by_cases hv : v = k
      · subst hv
        rw [if_pos rfl, if_pos (by simp), group_concat_of_eq h,
          Std.TreeMap.getD_eq_getD_getElem?, ih, size_ofPoints]
        split_ifs <;> rfl
      · rw [if_neg hv, ih]
        have hm : k ∈ groupKeys key ps ++ [v] ↔ k ∈ groupKeys key ps := by
          simp [Ne.symm hv]
        simp only [hm]
        split_ifs with hk
        · rw [group_concat_of_ne (by simpa [h] using hv) hk]
        · rfl

theorem nodup_keys (t : GroupTable) : t.keys.Nodup :=
  Std.TreeMap.distinct_keys.imp fun {a b} h he => h (by simp [he])

/-- The tag values of the groups, in order of first appearance. -/
theorem keys_perm : (ofPoints key ps).keys.Perm (groupKeys key ps).eraseDups :=
  (List.perm_ext_iff_of_nodup (nodup_keys _) (nodup_eraseDups _)).mpr fun k => by
    rw [Std.TreeMap.mem_keys, mem_ofPoints, List.mem_eraseDups]

/-- Entries stand in ascending order of their keys. -/
theorem pairwise_toList (t : GroupTable) : t.toList.Pairwise fun a b => a.1 < b.1 := by
  have h : t.toList.Pairwise fun a b => compare a.1 b.1 = .lt := Std.TreeMap.ordered_keys_toList
  exact h.imp fun h => compareOfLessAndEq_eq_lt.mp h

theorem mem_toList_ofPoints {e : String × Group} (h : e ∈ (ofPoints key ps).toList) :
    e.1 ∈ groupKeys key ps ∧ e.2 = Group.ofPoints key e.1 ps := by
  have hg := Std.TreeMap.mem_toList_iff_getElem?_eq_some.mp h
  rw [getElem?_ofPoints] at hg
  split_ifs at hg with hk
  exact ⟨hk, (Option.some.inj hg).symm⟩

/-- Keys with the places of their groups are read off the order of first appearance. -/
theorem map_firstSeen_perm {β : Type*} (f : String → ℕ → β) :
    ((ofPoints key ps).toList.map fun e => f e.1 e.2.firstSeen).Perm
      ((groupKeys key ps).eraseDups.map fun k => f k ((groupKeys key ps).eraseDups.idxOf k)) := by
  have he : ((ofPoints key ps).toList.map fun e => f e.1 e.2.firstSeen) =
      (ofPoints key ps).keys.map fun k => f k ((groupKeys key ps).eraseDups.idxOf k) := by
    rw [← Std.TreeMap.map_fst_toList_eq_keys, List.map_map]
    refine List.map_congr_left fun e hm => ?_
    rw [(mem_toList_ofPoints hm).2]
    rfl
  rw [he]
  exact keys_perm.map _

end GroupTable

end LoadReport
