import LoadReport.Proofs.Report.Tables

/-! # The rows of products

Groups remember the order of first appearance among points, and points stand in the order of their
lines. So the console lists products of one number in the order of the lines that name them first.
-/

namespace LoadReport

namespace Run

variable {s : Settings} {bytes : List UInt8}

/-- The product under which the point on a line is grouped. -/
def productOfLine? (s : Settings) (line : List UInt8) : Option String :=
  (Observation.ofLine? line).bind fun o =>
    if o.metric = s.metrics.duration then o.point.groupKey? s.tags.product else none

/-- The place of the first line with a point of a product. -/
def firstLine (s : Settings) (bytes : List UInt8) (id : String) : ℕ :=
  (lines bytes).findIdx (productOfLine? s · = some id)

theorem groupKeys_ofBytes :
    groupKeys s.tags.product ((ofBytes s bytes).metrics.points s.metrics.duration) =
      (lines bytes).filterMap (productOfLine? s) := by
  have hpoints : ∀ os : List Observation,
      groupKeys s.tags.product (pointsOf s.metrics.duration os) = os.filterMap fun o =>
        if o.metric = s.metrics.duration then o.point.groupKey? s.tags.product else none := by
    intro os
    rw [groupKeys, pointsOf, List.filterMap_map, List.filterMap_filter]
    simp only [Function.comp_def, decide_eq_true_eq]
  rw [points_ofBytes, hpoints, observations, List.filterMap_filterMap]
  rfl

theorem firstLine_lt_length {id : String} (h : id ∈ (ofBytes s bytes).products) :
    firstLine s bytes id < (lines bytes).length := by
  rw [products_ofBytes, GroupTable.mem_ofPoints, groupKeys_ofBytes] at h
  exact findIdx_lt_length h

/-- Of two products, the one that is first seen earlier is on the earlier line. -/
theorem firstLine_lt {a b : String × Group} (ha : a ∈ (ofBytes s bytes).products.toList)
    (hb : b ∈ (ofBytes s bytes).products.toList) (h : a.2.firstSeen < b.2.firstSeen) :
    firstLine s bytes a.1 < firstLine s bytes b.1 := by
  rw [products_ofBytes] at ha hb
  obtain ⟨_, ha⟩ := GroupTable.mem_toList_ofPoints ha
  obtain ⟨hkb, hb⟩ := GroupTable.mem_toList_ofPoints hb
  rw [ha, hb, Group.ofPoints, Group.ofPoints] at h
  rw [groupKeys_ofBytes] at h hkb
  exact rel_of_idxOf_lt (pairwise_findIdx (productOfLine? s) (lines bytes))
    (List.mem_eraseDups.mpr hkb) h

theorem eq_of_firstSeen_eq {a b : String × Group} (ha : a ∈ (ofBytes s bytes).products.toList)
    (hb : b ∈ (ofBytes s bytes).products.toList) (h : a.2.firstSeen = b.2.firstSeen) :
    a.1 = b.1 := by
  rw [products_ofBytes] at ha hb
  obtain ⟨hka, ha⟩ := GroupTable.mem_toList_ofPoints ha
  obtain ⟨hkb, hb⟩ := GroupTable.mem_toList_ofPoints hb
  rw [ha, hb] at h
  exact (List.idxOf_inj (List.mem_eraseDups.mpr hka)).mp h

end Run

namespace Report

theorem pairwise_products_ofBytes (s : Settings) (bytes : List UInt8) :
    (products (Run.ofBytes s bytes).products).Pairwise fun a b =>
      productNumber a.1 < productNumber b.1 ∨ productNumber a.1 = productNumber b.1 ∧
        Run.firstLine s bytes a.1 < Run.firstLine s bytes b.1 := by
  refine (pairwise_precedes _).imp_of_mem fun {a b} ha hb h => ?_
  rw [(perm_products _).mem_iff] at ha hb
  rcases h with hnumber | ⟨hnumber, hseen | ⟨htie, hbytes⟩⟩
  · exact .inl hnumber
  · exact .inr ⟨hnumber, Run.firstLine_lt ha hb hseen⟩
  · rw [Run.eq_of_firstSeen_eq ha hb htie] at hbytes
    exact absurd hbytes (List.lt_irrefl _)

/-- A report lists every product once, by number, by first appearance and by the bytes of the id.
On the console, products of one number stand in the order of their first lines. -/
theorem sorted_products (s : Settings) :
    (∀ t : GroupTable, (products t).Perm t.toList ∧ (products t).Pairwise Precedes) ∧
      ∀ bytes, ∃ rows,
        Console.lines (Run.ofBytes s bytes) s =
          Console.linesWith (Run.ofBytes s bytes) s
            (Console.rows (scenarios (Run.ofBytes s bytes).scenarios)) rows ∧
        (rows.map (·.key)).Perm (Run.ofBytes s bytes).products.keys ∧
        (∀ id ∈ rows.map (·.key), Run.firstLine s bytes id < (Run.lines bytes).length) ∧
        (rows.map (·.key)).Pairwise fun a b => productNumber a < productNumber b ∨
          productNumber a = productNumber b ∧
            Run.firstLine s bytes a < Run.firstLine s bytes b := by
  refine ⟨fun t => ⟨perm_products t, pairwise_precedes t⟩, fun bytes => ?_⟩
  have hkeys := Console.map_key_rows (counted_products s bytes)
  have hperm : ((Console.rows (products (Run.ofBytes s bytes).products)).map (·.key)).Perm
      (Run.ofBytes s bytes).products.keys := by
    rw [hkeys, ← Std.TreeMap.map_fst_toList_eq_keys]
    exact (perm_products _).map _
  refine ⟨_, Console.lines_ofBytes s bytes, hperm, fun id hid => ?_, ?_⟩
  · exact Run.firstLine_lt_length (Std.TreeMap.mem_keys.mp (hperm.mem_iff.mp hid))
  · rw [hkeys, List.pairwise_map]
    exact pairwise_products_ofBytes s bytes

end Report

end LoadReport
