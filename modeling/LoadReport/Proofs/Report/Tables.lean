import LoadReport.Report.Console
import LoadReport.Report.Html
import LoadReport.Proofs.Run.Contents
import LoadReport.Proofs.Report.ProductOrder
import LoadReport.Proofs.Sample.Order

/-! # Tables of groups

Every group that a results file leaves behind has durations and counts them. Hence no row is left
out of a table, and it does not matter whether a row shows the count or the number of durations.
-/

namespace LoadReport

namespace Group

variable {g : Group} {key k : String} {ps : List Point}

/-- A group with durations, all of which are counted. -/
structure Counted (g : Group) : Prop where
  ne_nil : g.durations.toList ≠ []
  count_eq : g.count = g.durations.toList.length

theorem counted_ofPoints (h : k ∈ groupKeys key ps) : (ofPoints key k ps).Counted where
  ne_nil := fun hn => GroupTable.groupValues_eq_nil_iff.mp hn h
  count_eq := rfl

end Group

namespace Report

variable {gs : List (String × Group)} {t : GroupTable}

theorem Html.rows_eq (h : ∀ e ∈ gs, e.2.Counted) : Html.rows gs = Console.rows gs := by
  refine List.filterMap_congr fun ⟨key, g⟩ he => ?_
  refine Option.map_congr fun stats hs => ?_
  rw [Statistics.count_of? hs, ← (h _ he).count_eq]

namespace Console

/-- Each group with durations has one row. -/
theorem map_key_rows (h : ∀ e ∈ gs, e.2.Counted) : (rows gs).map (·.key) = gs.map (·.1) := by
  induction gs with
  | nil => rfl
  | cons e gs ih =>
    obtain ⟨he, hgs⟩ := List.forall_mem_cons.mp h
    obtain ⟨stats, hs⟩ := Option.isSome_iff_exists.mp (Statistics.isSome_of?.mpr he.ne_nil)
    have hrows : rows (e :: gs) = Row.of e.1 e.2.count stats :: rows gs := by
      simp [rows, hs]
    rw [hrows, List.map_cons, ih hgs]
    rfl

/-- A table with the given rows; it is left out if there are none. -/
def table (heading keyLabel : String) (keyWidth : ℕ) (rs : List Row) : List String :=
  if rs = [] then []
  else
    [ heading,
      thinRule,
      tableRow keyWidth ⟨keyLabel, "requests", "avg(ms)", "P95(ms)", "P99(ms)"⟩,
      thinRule ] ++
    rs.map (tableRow keyWidth) ++
    [""]

theorem groupTable_eq (h : ∀ e ∈ gs, e.2.Counted) (hperm : gs.Perm t.toList)
    (heading keyLabel : String) (keyWidth : ℕ) :
    (if t.isEmpty then [] else groupTable heading keyLabel keyWidth gs) =
      table heading keyLabel keyWidth (rows gs) := by
  have hrows : rows gs = [] ↔ t.isEmpty := by
    rw [← List.map_eq_nil_iff, map_key_rows h, List.map_eq_nil_iff, ← Std.TreeMap.isEmpty_toList,
      List.isEmpty_iff, ← List.length_eq_zero_iff, hperm.length_eq, List.length_eq_zero_iff]
  simp only [table, hrows]
  rfl

def durationTable (r : Run) (s : Settings) : List String :=
  ((Statistics.of? (r.metrics.values s.metrics.duration)).map
    (durations s.metrics.duration)).getD []

def waitingTable (r : Run) (s : Settings) : List String :=
  ((Statistics.of? (r.metrics.values s.metrics.waiting)).map (waiting s.metrics.waiting)).getD []

/-- The lines of the report with the given rows of scenarios and of products. -/
def linesWith (r : Run) (s : Settings) (scenarioRows productRows : List Row) : List String :=
  banner s.title ++
  overall (Summary.of r s) ++
  durationTable r s ++
  waitingTable r s ++
  table "Response time by scenario" "scenario" 20 scenarioRows ++
  table "Response time by product" "product id" 10 productRows ++
  [rule, ""]

end Console

theorem counted_scenarios (s : Settings) (bytes : List UInt8) :
    ∀ e ∈ scenarios (Run.ofBytes s bytes).scenarios, e.2.Counted := by
  intro e he
  rw [scenarios, Run.scenarios_ofBytes] at he
  obtain ⟨hk, hg⟩ := GroupTable.mem_toList_ofPoints he
  exact hg ▸ Group.counted_ofPoints hk

theorem counted_products (s : Settings) (bytes : List UInt8) :
    ∀ e ∈ products (Run.ofBytes s bytes).products, e.2.Counted := by
  intro e he
  rw [(perm_products _).mem_iff, Run.products_ofBytes] at he
  obtain ⟨hk, hg⟩ := GroupTable.mem_toList_ofPoints he
  exact hg ▸ Group.counted_ofPoints hk

/-- The console report on a results file has a table for every kind of groups that occurs. -/
theorem Console.lines_ofBytes (s : Settings) (bytes : List UInt8) :
    lines (Run.ofBytes s bytes) s =
      linesWith (Run.ofBytes s bytes) s (rows (scenarios (Run.ofBytes s bytes).scenarios))
        (rows (products (Run.ofBytes s bytes).products)) := by
  rw [lines, groupTable_eq (counted_scenarios s bytes) (List.Perm.refl _),
    groupTable_eq (counted_products s bytes) (perm_products _)]
  rfl

end Report

end LoadReport
