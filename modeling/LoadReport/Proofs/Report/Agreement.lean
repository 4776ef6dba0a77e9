import LoadReport.Proofs.Report.Tables

/-! # The console and the page agree

Both reports list the same rows of scenarios, and the headlines of the page are texts of the
console.
-/

namespace LoadReport.Report

variable {r : Run} {s : Settings} {bytes : List UInt8}

/-- What both reports on a run show: rows of scenarios, the number of requests, and the mean and the
95th percentile of request durations. -/
structure Agree (r : Run) (s : Settings) (rows : List Row) (requests mean p95 : String) : Prop where
  console_eq : Console.lines r s =
    Console.linesWith r s rows (Console.rows (products r.products))
  page_eq : Html.lines r s =
    Html.opening r s ++ Html.tableHead ++ ["            <tbody>"] ++ rows.flatMap Html.tableRow ++
      ["            </tbody>"] ++ Html.closing
  keys_eq : rows.map (·.key) = r.scenarios.keys
  ascending : rows.Pairwise fun a b => Utf8.encode a.key < Utf8.encode b.key
  headlines_eq : Html.headlines r s =
    Html.headline "Total requests" requests ++
      Html.headline "Avg response time" (mean ++ "ms") ++
      Html.headline "P95 response time" (p95 ++ "ms")
  /-- The sixth line of the overall figures. -/
  requests_eq : (Console.overall (Summary.of r s))[5]? = some ("Total requests: " ++ requests)
  /-- The first and the sixth row below the three lines of the heading. -/
  durations_eq : Console.durationTable r s ≠ [] →
    (Console.durationTable r s)[3]? =
        some (alignLeft 15 "avg" ++ " " ++ alignRight 12 mean ++ " " ++ alignRight 8 "ms") ∧
      (Console.durationTable r s)[8]? =
        some (alignLeft 15 "P95" ++ " " ++ alignRight 12 p95 ++ " " ++ alignRight 8 "ms")
  no_durations : Console.durationTable r s = [] → mean = "0.00" ∧ p95 = "0.00"

theorem figure_zero : figure 0 = "0.00" := by decide +kernel

theorem ascending_of_map_key {rs : List Row} {t : GroupTable} (h : rs.map (·.key) = t.keys) :
    rs.Pairwise fun a b => Utf8.encode a.key < Utf8.encode b.key := by
  rw [← List.pairwise_map (f := Row.key) (R := fun a b => Utf8.encode a < Utf8.encode b), h,
    ← Std.TreeMap.map_fst_toList_eq_keys, List.pairwise_map]
  exact (GroupTable.pairwise_toList t).imp Utf8.encode_lt_encode

/-- The console and the page show the same rows of scenarios, every scenario once and in the order
of its bytes, and the same headline figures. -/
theorem agree_ofBytes (s : Settings) (bytes : List UInt8) :
    ∃ rows requests mean p95, Agree (Run.ofBytes s bytes) s rows requests mean p95 := by
  have hkeys : (Console.rows (scenarios (Run.ofBytes s bytes).scenarios)).map (·.key) =
      (Run.ofBytes s bytes).scenarios.keys := by
    rw [Console.map_key_rows (counted_scenarios s bytes), scenarios,
      Std.TreeMap.map_fst_toList_eq_keys]
  refine ⟨Console.rows (scenarios (Run.ofBytes s bytes).scenarios), _, _, _,
    Console.lines_ofBytes s bytes, ?_, hkeys, ascending_of_map_key hkeys, rfl, rfl, ?_, ?_⟩
  · rw [Html.lines, Html.rows_eq (counted_scenarios s bytes)]
  · intro h
    cases hs : Statistics.of? ((Run.ofBytes s bytes).metrics.values s.metrics.duration) with
    | none => simp [Console.durationTable, hs] at h
    | some stats => simp [Console.durationTable, hs, Console.durations, Console.durationRow]
  · intro h
    cases hs : Statistics.of? ((Run.ofBytes s bytes).metrics.values s.metrics.duration) with
    | none => exact ⟨figure_zero, figure_zero⟩
    | some stats => simp [Console.durationTable, hs, Console.durations] at h

end LoadReport.Report
