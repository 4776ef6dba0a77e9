import LoadReport.Proofs.Report.PlainText
import LoadReport.Proofs.Report.Tables
import LoadReport.Proofs.Report.Writing

/-! # Lines of the console report

Every item of the report is one line, and numbers and times never have a line feed. So a text has as
many line feeds as the report has items, and those that the names in it bring along.
-/

namespace LoadReport.Report

variable {a b name : String} {r : Run} {s : Settings} {row : Row} {rs : List Row} {ls : List String}
  {groups : List (String × Group)}

abbrev lineFeeds (s : String) : ℕ := occurrences '\n' s

@[simp]
theorem lineFeeds_figure (x : Float) : lineFeeds (figure x) = 0 :=
  occurrences_figure (.inr (by decide))

theorem sum_lineFeeds_eq_zero : (ls.map lineFeeds).sum = 0 ↔ ∀ l ∈ ls, '\n' ∉ l.toList := by
  rw [List.sum_eq_zero_iff_forall_eq_nat, List.forall_mem_map]
  simp only [occurrences_eq_zero]

namespace Console

theorem lineFeeds_textOf (ls : List String) :
    lineFeeds (textOf ls) = ls.length + (ls.map lineFeeds).sum := by
  induction ls with
  | nil => rfl
  | cons l ls ih =>
    have hcons : textOf (l :: ls) = l ++ "\n" ++ textOf ls := by simp [textOf]
    have happend :
        lineFeeds (l ++ "\n" ++ textOf ls) = lineFeeds l + 1 + lineFeeds (textOf ls) := by
      rw [lineFeeds, occurrences_append, occurrences_append]
      rfl
    rw [hcons, happend, ih, List.length_cons, List.map_cons, List.sum_cons]
    omega

/-! ## Sections -/

theorem sum_banner (title : String) : ((banner title).map lineFeeds).sum = lineFeeds title := by
  have hempty : lineFeeds "" = 0 := rfl
  have hrule : lineFeeds rule = 0 := by decide
  simp [banner, hempty, hrule]

theorem sum_overall (t : Summary) : ((overall t).map lineFeeds).sum = 0 := by
  rw [List.sum_eq_zero_iff_forall_eq_nat, List.forall_mem_map]
  by_cases h : 0 < t.requests <;> simp +decide [overall, h]

/-- Of a section under a headline with a name only the headline can have line feeds. -/
theorem sum_headed (ha : lineFeeds a = 0) (hb : lineFeeds b = 0) (hls : ∀ l ∈ ls, lineFeeds l = 0)
    (name : String) : (((a ++ name ++ b) :: ls).map lineFeeds).sum = lineFeeds name := by
  have hsum : (ls.map lineFeeds).sum = 0 :=
    List.sum_eq_zero_iff_forall_eq_nat.mpr (List.forall_mem_map.mpr hls)
  simp [ha, hb, hsum]

theorem sum_durations (name : String) (t : Statistics) :
    ((durations name t).map lineFeeds).sum = lineFeeds name := by
  apply sum_headed
  all_goals simp +decide [durationRow]

theorem sum_waiting (name : String) (t : Statistics) :
    ((waiting name t).map lineFeeds).sum = lineFeeds name := by
  apply sum_headed
  all_goals simp +decide

/-! ## Tables -/

theorem lineFeeds_tableRow (keyWidth : ℕ) (row : Row) :
    lineFeeds (tableRow keyWidth row) =
      lineFeeds row.key + lineFeeds row.requests + lineFeeds row.mean + lineFeeds row.p95 +
        lineFeeds row.p99 := by
  have hblank : lineFeeds " " = 0 := rfl
  simp [tableRow, hblank]

theorem lineFeeds_tableRow_of_mem (h : row ∈ rows groups) (keyWidth : ℕ) :
    lineFeeds (tableRow keyWidth row) = lineFeeds row.key := by
  obtain ⟨⟨key, g⟩, -, h⟩ := List.mem_filterMap.mp h
  obtain ⟨t, -, rfl⟩ := Option.map_eq_some_iff.mp h
  simp [lineFeeds_tableRow, Row.of]

theorem length_table (heading keyLabel : String) (keyWidth : ℕ) (rs : List Row) :
    (table heading keyLabel keyWidth rs).length = if rs = [] then 0 else 5 + rs.length := by
  rw [table]
  split
  · rfl
  · simp
    omega

theorem sum_table {heading keyLabel : String} (hheading : lineFeeds heading = 0)
    (hlabel : lineFeeds keyLabel = 0) (keyWidth : ℕ) (groups : List (String × Group)) :
    ((table heading keyLabel keyWidth (rows groups)).map lineFeeds).sum =
      (((rows groups).map (·.key)).map lineFeeds).sum := by
  have hempty : lineFeeds "" = 0 := rfl
  have hrule : lineFeeds thinRule = 0 := by decide
  have hhead :
      lineFeeds (tableRow keyWidth ⟨keyLabel, "requests", "avg(ms)", "P95(ms)", "P99(ms)"⟩) = 0 := by
    rw [lineFeeds_tableRow, hlabel]
    dsimp only
    decide
  have hrows : (rows groups).map (fun row => lineFeeds (tableRow keyWidth row)) =
      (rows groups).map fun row => lineFeeds row.key :=
    List.map_congr_left fun row hrow => lineFeeds_tableRow_of_mem hrow keyWidth
  rw [table]
  split_ifs with hnil
  · rw [hnil]
    rfl
  · simp [hheading, hempty, hrule, hhead, Function.comp_def, hrows]

/-! ## The report -/

/-- The number of items of the report: those that are always there, those of the sections for
durations and for waiting times, and those of the tables, with one for every group. -/
def items (r : Run) (s : Settings) : ℕ :=
  17 +
  (if r.metrics.points s.metrics.duration = [] then 0 else 11) +
  (if r.metrics.points s.metrics.waiting = [] then 0 else 6) +
  (if r.scenarios.isEmpty then 0 else 5 + r.scenarios.size) +
  (if r.products.isEmpty then 0 else 5 + r.products.size)

/-- The names in the report: the title, the metrics of the sections that are there, and the groups.
-/
def shownNames (r : Run) (s : Settings) : List String :=
  [s.title] ++
  (if r.metrics.points s.metrics.duration = [] then [] else [s.metrics.duration]) ++
  (if r.metrics.points s.metrics.waiting = [] then [] else [s.metrics.waiting]) ++
  r.scenarios.keys ++
  r.products.keys

/-- A section is there if its metric has points. -/
theorem section_cases (r : Run) (name : String) (f : Statistics → List String) :
    (r.metrics.points name = [] ∧
        ((Statistics.of? (r.metrics.values name)).map f).getD [] = []) ∨
      (r.metrics.points name ≠ [] ∧
        ∃ t, ((Statistics.of? (r.metrics.values name)).map f).getD [] = f t) := by
  have hsome : (Statistics.of? (r.metrics.values name)).isSome ↔ r.metrics.points name ≠ [] := by
    rw [Statistics.isSome_of?, MetricSet.values, ne_eq, List.map_eq_nil_iff]
  cases ht : Statistics.of? (r.metrics.values name) with
  | none =>
    rw [ht] at hsome
    exact .inl ⟨not_not.mp fun h => absurd (hsome.mpr h) Bool.false_ne_true, rfl⟩
  | some t =>
    rw [ht] at hsome
    exact .inr ⟨hsome.mp rfl, t, rfl⟩

theorem length_section {f : Statistics → List String} {n : ℕ} (hf : ∀ t, (f t).length = n) :
    (((Statistics.of? (r.metrics.values name)).map f).getD []).length =
      if r.metrics.points name = [] then 0 else n := by
  rcases section_cases r name f with ⟨hnil, h⟩ | ⟨hne, t, h⟩
  · rw [h, if_pos hnil]
    rfl
  · rw [h, if_neg hne, hf]

theorem sum_section {f : Statistics → List String}
    (hf : ∀ t, ((f t).map lineFeeds).sum = lineFeeds name) :
    ((((Statistics.of? (r.metrics.values name)).map f).getD []).map lineFeeds).sum =
      ((if r.metrics.points name = [] then [] else [name]).map lineFeeds).sum := by
  rcases section_cases r name f with ⟨hnil, h⟩ | ⟨hne, t, h⟩
  · rw [h, if_pos hnil]
  · rw [h, if_neg hne, hf]
    exact (List.sum_singleton).symm

theorem length_table_ofGroups {t : GroupTable} (h : ∀ e ∈ groups, e.2.Counted)
    (hperm : groups.Perm t.toList) (heading keyLabel : String) (keyWidth : ℕ) :
    (table heading keyLabel keyWidth (rows groups)).length =
      if t.isEmpty then 0 else 5 + t.size := by
  have hlength : (rows groups).length = t.size := by
    rw [← List.length_map (Row.key), map_key_rows h, List.length_map, hperm.length_eq,
      Std.TreeMap.length_toList]
  have hnil : rows groups = [] ↔ t.isEmpty := by
    rw [← List.length_eq_zero_iff, hlength, Std.TreeMap.isEmpty_eq_size_eq_zero, beq_iff_eq]
  rw [length_table, hlength]
  simp only [hnil]

theorem sum_table_ofGroups {t : GroupTable} (h : ∀ e ∈ groups, e.2.Counted)
    (hperm : groups.Perm t.toList) {heading keyLabel : String} (hheading : lineFeeds heading = 0)
    (hlabel : lineFeeds keyLabel = 0) (keyWidth : ℕ) :
    ((table heading keyLabel keyWidth (rows groups)).map lineFeeds).sum =
      (t.keys.map lineFeeds).sum := by
  rw [sum_table hheading hlabel, map_key_rows h, ← Std.TreeMap.map_fst_toList_eq_keys]
  exact ((hperm.map _).map _).sum_nat

theorem length_lines (s : Settings) (bytes : List UInt8) :
    (lines (Run.ofBytes s bytes) s).length = items (Run.ofBytes s bytes) s := by
  have hbanner : (banner s.title).length = 5 := rfl
  have hoverall (t : Summary) : (overall t).length = 10 := rfl
  have hdurations (t : Statistics) : (durations s.metrics.duration t).length = 11 := rfl
  have hwaiting (t : Statistics) : (waiting s.metrics.waiting t).length = 6 := rfl
  have hend : [rule, ""].length = 2 := rfl
  rw [lines_ofBytes, linesWith, durationTable, waitingTable]
  simp only [List.length_append, hbanner, hoverall, length_section hdurations,
    length_section hwaiting, length_table_ofGroups (counted_scenarios s bytes) (List.Perm.refl _),
    length_table_ofGroups (counted_products s bytes) (perm_products _), hend, items]
  omega

theorem sum_lines (s : Settings) (bytes : List UInt8) :
    ((lines (Run.ofBytes s bytes) s).map lineFeeds).sum =
      ((shownNames (Run.ofBytes s bytes) s).map lineFeeds).sum := by
  have hend : ([rule, ""].map lineFeeds).sum = 0 := by decide
  rw [lines_ofBytes, linesWith, durationTable, waitingTable, shownNames]
  simp only [List.map_append, List.sum_append_nat, sum_banner, sum_overall,
    sum_section (sum_durations _), sum_section (sum_waiting _), hend]
  rw [sum_table_ofGroups (counted_scenarios s bytes) (List.Perm.refl _) (by decide) (by decide),
    sum_table_ofGroups (counted_products s bytes) (perm_products _) (by decide) (by decide)]
  simp

theorem lineFeeds_text_ofBytes (s : Settings) (bytes : List UInt8) :
    lineFeeds (text (Run.ofBytes s bytes) s) =
      items (Run.ofBytes s bytes) s + ((shownNames (Run.ofBytes s bytes) s).map lineFeeds).sum := by
  rw [← length_lines, ← sum_lines]
  exact lineFeeds_textOf _

/-- Lines without line feeds are found again in their text. -/
theorem splitOn_textOf (h : ∀ l ∈ ls, '\n' ∉ l.toList) :
    (textOf ls).toList.splitOn '\n' = ls.map String.toList ++ [[]] := by
  induction ls with
  | nil => rfl
  | cons l ls ih =>
    obtain ⟨hl, hls⟩ := List.forall_mem_cons.mp h
    have hcons : (textOf (l :: ls)).toList = l.toList ++ '\n' :: (textOf ls).toList := by
      simp [textOf]
    have hne : ∀ c ∈ l.toList, (c == '\n') = false := fun c hc =>
      beq_false_of_ne fun heq => hl (heq ▸ hc)
    rw [hcons, List.splitOn, List.splitOnP_append_cons_of_forall_mem hne _ (beq_self_eq_true _)]
    exact congrArg (l.toList :: ·) (ih hls)

/-- What the names in the report on a run do to its lines. There are as many line feeds as items and
line feeds in names. So there is one for every item just if no name has any, and then the lines of
the text are the items. -/
structure Lineation (r : Run) (s : Settings) : Prop where
  length_eq : (lines r s).length = items r s
  lineFeeds_eq : lineFeeds (text r s) = items r s + ((shownNames r s).map lineFeeds).sum
  eq_items_iff : lineFeeds (text r s) = items r s ↔ ∀ n ∈ shownNames r s, '\n' ∉ n.toList
  splitOn_eq : (∀ n ∈ shownNames r s, '\n' ∉ n.toList) →
    (text r s).toList.splitOn '\n' = (lines r s).map String.toList ++ [[]]

theorem lineation_ofBytes (s : Settings) (bytes : List UInt8) :
    Lineation (Run.ofBytes s bytes) s where
  length_eq := length_lines s bytes
  lineFeeds_eq := lineFeeds_text_ofBytes s bytes
  eq_items_iff := by
    rw [lineFeeds_text_ofBytes, Nat.add_eq_left, sum_lineFeeds_eq_zero]
  splitOn_eq h := by
    apply splitOn_textOf
    rwa [← sum_lineFeeds_eq_zero, sum_lines, sum_lineFeeds_eq_zero]

/-- A request of a scenario with a line feed in its name. -/
def brokenNameFile : List UInt8 := Utf8.encode
  ("\x7b\"type\":\"Point\",\"metric\":\"http_req_duration\",\"data\":\x7b\"value\":120," ++
    "\"tags\":\x7b\"scenario\":\"load\\nspike\"\x7d\x7d\x7d")

/-- The row of the scenario takes two lines, and the second one looks like the row of another one.
-/
theorem lineFeeds_text_brokenNameFile :
    items (Run.ofBytes {} brokenNameFile) {} = 34 ∧
      lineFeeds (text (Run.ofBytes {} brokenNameFile) {}) = 35 := by
  have hduration : (Run.ofBytes {} brokenNameFile).metrics.points "http_req_duration" ≠ [] := by
    rw [Run.points_ofBytes]
    decide +kernel
  have hwaiting : (Run.ofBytes {} brokenNameFile).metrics.points "http_req_waiting" = [] := by
    rw [Run.points_ofBytes]
    decide +kernel
  have hscenarios : (Run.ofBytes {} brokenNameFile).scenarios.keys.Perm ["load\nspike"] := by
    rw [Run.scenarios_ofBytes, Run.points_ofBytes]
    exact GroupTable.keys_perm.trans (.of_eq (by decide +kernel))
  have hproducts : (Run.ofBytes {} brokenNameFile).products.keys.Perm [] := by
    rw [Run.products_ofBytes, Run.points_ofBytes]
    exact GroupTable.keys_perm.trans (.of_eq (by decide +kernel))
  have hitems : items (Run.ofBytes {} brokenNameFile) {} = 34 := by
    have hone : (Run.ofBytes {} brokenNameFile).scenarios.size = 1 := by
      rw [← Std.TreeMap.length_keys, hscenarios.length_eq, List.length_singleton]
    have hnone : (Run.ofBytes {} brokenNameFile).products.size = 0 := by
      rw [← Std.TreeMap.length_keys, hproducts.length_eq, List.length_nil]
    rw [items, if_neg hduration, if_pos hwaiting]
    simp only [Std.TreeMap.isEmpty_eq_size_eq_zero, hone, hnone]
    rfl
  have hfeeds : ((shownNames (Run.ofBytes {} brokenNameFile) {}).map lineFeeds).sum = 1 := by
    rw [shownNames, if_neg hduration, if_pos hwaiting]
    simp only [List.map_append, List.sum_append_nat, (hscenarios.map _).sum_nat,
      (hproducts.map _).sum_nat]
    decide
  refine ⟨hitems, ?_⟩
  rw [lineFeeds_text_ofBytes, hitems, hfeeds]

end Console

end LoadReport.Report
