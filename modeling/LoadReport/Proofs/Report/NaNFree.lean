import LoadReport.Proofs.Report.Figures
import LoadReport.Proofs.Report.PlainText
import LoadReport.Proofs.Run.Reordering

/-! # Reports without NaN

Only names and the text of NaN have a capital N in a report. So a run whose figures are numbers
leaves reports without that letter, unless a name brings it in.
-/

namespace LoadReport.Report

variable {r : Run} {s : Settings} {a : String} {x : Float}

/-- Whether a text lacks the letter that NaN begins with. -/
@[simp]
abbrev Quiet (s : String) : Prop := occurrences 'N' s = 0

theorem quiet_figure : Quiet (figure x) ↔ x.isNaN = false := by
  cases hnan : x.isNaN with
  | true =>
    rw [figure, Decimal.fixed, if_pos hnan]
    decide
  | false => exact iff_of_true (occurrences_figure (.inl hnan)) rfl

namespace Console

theorem quiet_overall {t : Summary} (h : ∀ x ∈ t.figures, Quiet (figure x)) :
    ∀ l ∈ overall t, Quiet l := by
  simp only [Summary.figures, List.forall_mem_cons] at h
  obtain ⟨hseconds, hminutes, hfailed, herror, hthroughput, -⟩ := h
  by_cases hrequests : 0 < t.requests <;>
    simp +decide [overall, thinRule, hrequests, hseconds, hminutes, hfailed, herror, hthroughput]

theorem quiet_durations {t : Statistics} {name : String} (hname : Quiet name)
    (h : ∀ x ∈ t.figures, Quiet (figure x)) : ∀ l ∈ durations name t, Quiet l := by
  simp only [Statistics.figures, List.forall_mem_cons] at h
  obtain ⟨hmean, hmedian, hmin, hmax, hp90, hp95, hp99, -⟩ := h
  simp +decide [durations, thinRule, durationRow, hname, hmean, hmedian, hmin, hmax, hp90, hp95,
    hp99]

theorem quiet_waiting {t : Statistics} {name : String} (hname : Quiet name)
    (h : ∀ x ∈ rowFigures t, Quiet (figure x)) : ∀ l ∈ waiting name t, Quiet l := by
  simp only [rowFigures, List.forall_mem_cons] at h
  obtain ⟨hmean, hp95, hp99, -⟩ := h
  simp +decide [waiting, thinRule, hname, hmean, hp95, hp99]

end Console

/-- The rows of groups lack the letter if their names do. -/
structure QuietRow (row : Row) : Prop where
  key : Quiet row.key
  requests : Quiet row.requests
  mean : Quiet row.mean
  p95 : Quiet row.p95
  p99 : Quiet row.p99

theorem quietRow_of {key : String} {t : Statistics} (hkey : Quiet key)
    (h : ∀ x ∈ rowFigures t, Quiet (figure x)) (n : ℕ) : QuietRow (Row.of key n t) := by
  simp only [rowFigures, List.forall_mem_cons] at h
  obtain ⟨hmean, hp95, hp99, -⟩ := h
  constructor <;> simp [Row.of, hkey, hmean, hp95, hp99]

theorem quietRow_of_mem {groups : List (String × Group)} {row : Row}
    (requests : String × Group → Statistics → ℕ)
    (hkeys : ∀ e ∈ groups, Quiet e.1) (h : ∀ x ∈ groupFigures groups, Quiet (figure x))
    (hrow : row ∈ groups.filterMap fun e =>
      (Statistics.of? e.2.durations.toList).map fun t => Row.of e.1 (requests e t) t) :
    QuietRow row := by
  obtain ⟨e, he, hrow⟩ := List.mem_filterMap.mp hrow
  obtain ⟨t, ht, rfl⟩ := Option.map_eq_some_iff.mp hrow
  refine quietRow_of (hkeys e he) (fun x hx => h x ?_) _
  exact List.mem_flatMap.mpr ⟨t, List.mem_filterMap.mpr ⟨e, he, ht⟩, hx⟩

namespace Console

theorem quiet_tableRow {row : Row} (h : QuietRow row) (n : ℕ) : Quiet (tableRow n row) := by
  simp +decide [tableRow, h.key, h.requests, h.mean, h.p95, h.p99]

theorem quiet_groupTable {groups : List (String × Group)} {heading label : String} {width : ℕ}
    (hheading : Quiet heading) (hlabel : Quiet label) (hkeys : ∀ e ∈ groups, Quiet e.1)
    (h : ∀ x ∈ groupFigures groups, Quiet (figure x)) :
    ∀ l ∈ groupTable heading label width groups, Quiet l := by
  have hhead : QuietRow ⟨label, "requests", "avg(ms)", "P95(ms)", "P99(ms)"⟩ := by
    constructor <;> simp +decide [hlabel]
  have hrows : ∀ row ∈ rows groups, Quiet (tableRow width row) := fun row hrow =>
    quiet_tableRow (quietRow_of_mem (fun e _ => e.2.count) hkeys h hrow) width
  simp only [groupTable, tableHead, List.forall_mem_append, List.forall_mem_cons,
    List.forall_mem_map]
  refine ⟨⟨⟨hheading, ?_, quiet_tableRow hhead width, ?_, List.forall_mem_nil _⟩, hrows⟩, ?_⟩
  all_goals decide

end Console

/-- The names that reports show: the title, two names of metrics, and those of groups. -/
def names (r : Run) (s : Settings) : List String :=
  [s.title, s.metrics.duration, s.metrics.waiting] ++ r.scenarios.toList.map (·.1) ++
    r.products.toList.map (·.1)

theorem quiet_lines {ls : List String} (h : ∀ l ∈ ls, Quiet l) :
    Quiet (String.join (ls.map (· ++ "\n"))) :=
  occurrences_join_eq_zero (List.forall_mem_map.mpr fun l hl =>
    occurrences_append_eq_zero.mpr ⟨h l hl, rfl⟩)

theorem Console.quiet_text (hnames : ∀ n ∈ names r s, Quiet n)
    (h : ∀ x ∈ figures r s, Quiet (figure x)) : Quiet (text r s) := by
  simp only [names, List.forall_mem_append, List.forall_mem_cons, List.forall_mem_map] at hnames
  obtain ⟨⟨⟨htitle, hduration, hwaiting, -⟩, hscenarios⟩, hproducts⟩ := hnames
  simp only [figures, List.forall_mem_append] at h
  obtain ⟨⟨⟨⟨hoverall, hdurations⟩, hwaitings⟩, hscenario⟩, hproduct⟩ := h
  refine quiet_lines ?_
  simp only [lines, List.forall_mem_append]
  refine ⟨⟨⟨⟨⟨⟨?_, quiet_overall hoverall⟩, ?_⟩, ?_⟩, ?_⟩, ?_⟩, ?_⟩
  · simp +decide [banner, rule, htitle]
  · cases ht : Statistics.of? (r.metrics.values s.metrics.duration) with
    | none => exact List.forall_mem_nil _
    | some t =>
      rw [ht] at hdurations
      exact quiet_durations hduration hdurations
  · cases ht : Statistics.of? (r.metrics.values s.metrics.waiting) with
    | none => exact List.forall_mem_nil _
    | some t =>
      rw [ht] at hwaitings
      exact quiet_waiting hwaiting hwaitings
  · split
    · exact List.forall_mem_nil _
    · exact quiet_groupTable (by decide) (by decide) hscenarios hscenario
  · split
    · exact List.forall_mem_nil _
    · exact quiet_groupTable (by decide) (by decide)
        (fun e he => hproducts e (List.mem_mergeSort.mp he)) hproduct
  · decide

namespace Html

theorem quiet_escape (h : Quiet a) : Quiet (escape a) := by
  refine occurrences_eq_zero.mpr fun hmem => ?_
  rcases mem_escape hmem with hentity | ⟨hname, -⟩
  · exact absurd hentity (by decide)
  · exact occurrences_eq_zero.mp h hname

theorem quiet_head (h : Quiet s.title) : ∀ l ∈ head s, Quiet l := by
  simp only [head, List.forall_mem_append, List.forall_mem_cons, List.forall_mem_map,
    occurrences_append_eq_zero]
  refine ⟨⟨⟨?_, ?_, ⟨⟨?_, quiet_escape h⟩, ?_⟩, ?_, List.forall_mem_nil _⟩,
    fun l hl => ⟨?_, occurrences_style (.inr rfl) l hl⟩⟩, ?_, ?_, List.forall_mem_nil _⟩
  all_goals decide

theorem quiet_headline {label value : String} (hlabel : Quiet label) (hvalue : Quiet value) :
    ∀ l ∈ headline label value, Quiet l := by
  simp only [headline, List.forall_mem_cons, occurrences_append_eq_zero]
  refine ⟨?_, ⟨⟨?_, hlabel⟩, ?_⟩, ⟨⟨?_, hvalue⟩, ?_⟩, ?_, List.forall_mem_nil _⟩
  all_goals decide

theorem quiet_headlines (h : ∀ x ∈ figures r s, Quiet (figure x)) :
    ∀ l ∈ headlines r s, Quiet l := by
  simp only [figures, List.forall_mem_append, List.forall_mem_cons] at h
  obtain ⟨⟨hmean, hp95, -⟩, -⟩ := h
  have hms : ∀ {x : Float}, Quiet (figure x) → Quiet (figure x ++ "ms") := fun hx =>
    occurrences_append_eq_zero.mpr ⟨hx, by decide⟩
  simp only [headlines, List.forall_mem_append]
  refine ⟨⟨quiet_headline ?_ (occurrences_count _), quiet_headline ?_ (hms hmean)⟩,
    quiet_headline ?_ (hms hp95)⟩
  all_goals decide

theorem quiet_opening (htitle : Quiet s.title) (h : ∀ x ∈ figures r s, Quiet (figure x)) :
    ∀ l ∈ opening r s, Quiet l := by
  simp only [opening, List.forall_mem_append, List.forall_mem_cons, occurrences_append_eq_zero]
  refine ⟨⟨⟨⟨⟨?_, ?_, List.forall_mem_nil _⟩, quiet_head htitle⟩, ?_, ?_,
    ⟨⟨?_, quiet_escape htitle⟩, ?_⟩, ?_, ?_, List.forall_mem_nil _⟩, quiet_headlines h⟩,
    ?_, ?_, ?_, ?_, List.forall_mem_nil _⟩
  all_goals decide

theorem quiet_cell (h : Quiet a) : Quiet (cell a) := by
  refine occurrences_append_eq_zero.mpr ⟨occurrences_append_eq_zero.mpr ⟨?_, h⟩, ?_⟩
  all_goals decide

theorem quiet_tableRow {row : Row} (h : QuietRow row) : ∀ l ∈ tableRow row, Quiet l := by
  simp only [tableRow, tableLine, cells, List.forall_mem_append, List.forall_mem_cons]
  refine ⟨⟨⟨?_, List.forall_mem_nil _⟩, quiet_cell (quiet_escape h.key), quiet_cell h.requests,
    quiet_cell h.mean, quiet_cell h.p95, quiet_cell h.p99, List.forall_mem_nil _⟩, ?_,
    List.forall_mem_nil _⟩
  all_goals decide

theorem quiet_text (hnames : ∀ n ∈ names r s, Quiet n)
    (h : ∀ x ∈ figures r s, Quiet (figure x)) : Quiet (text r s) := by
  simp only [names, List.forall_mem_append, List.forall_mem_cons, List.forall_mem_map] at hnames
  obtain ⟨⟨⟨htitle, -⟩, hscenarios⟩, -⟩ := hnames
  have hgroups : ∀ x ∈ groupFigures (scenarios r.scenarios), Quiet (figure x) :=
    (List.forall_mem_append.mp h).2
  have hrows : ∀ row ∈ rows (scenarios r.scenarios), ∀ l ∈ tableRow row, Quiet l := fun row hrow =>
    quiet_tableRow (quietRow_of_mem (fun _ t => t.count) hscenarios hgroups hrow)
  refine quiet_lines ?_
  have hbody : ∀ l ∈ (rows (scenarios r.scenarios)).flatMap tableRow, Quiet l := fun l hl =>
    let ⟨row, hrow, hmem⟩ := List.mem_flatMap.mp hl
    hrows row hrow l hmem
  simp only [lines, List.forall_mem_append]
  refine ⟨⟨⟨⟨⟨quiet_opening htitle h, ?_⟩, ?_⟩, hbody⟩, ?_⟩, ?_⟩
  all_goals decide

end Html

/-- No number in the reports on a run is NaN, and no text has its letter unless a name does. -/
structure FreeOfNaN (r : Run) (s : Settings) : Prop where
  console : ∀ x ∈ Console.figures r s, x.isNaN = false
  page : ∀ x ∈ Html.figures r s, x.isNaN = false
  consoleText : (∀ n ∈ names r s, Quiet n) → Quiet (Console.text r s)
  pageText : (∀ n ∈ names r s, Quiet n) → Quiet (Html.text r s)

/-- Whatever a file holds and whatever the settings are, its reports are free of NaN, as long as a
machine word counts the points. -/
theorem freeOfNaN_ofBytes (s : Settings) (bytes : List UInt8)
    (h : (Run.ofBytes s bytes).metrics.totalPoints < 2 ^ 64) :
    FreeOfNaN (Run.ofBytes s bytes) s := by
  have hbounded := Run.bounded_ofBytes h
  have hconsole := Console.isNaN_figures (s := s) hbounded
  have hpage := Html.isNaN_figures (s := s) hbounded
  exact ⟨hconsole, hpage,
    fun hnames => Console.quiet_text hnames fun x hx => quiet_figure.mpr (hconsole x hx),
    fun hnames => Html.quiet_text hnames fun x hx => quiet_figure.mpr (hpage x hx)⟩

/-- A duration near the upper end of the range, with either sign. -/
def extremeLine (sign : String) : List UInt8 := Utf8.encode
  ("\x7b\"type\":\"Point\",\"metric\":\"http_req_duration\",\"data\":\x7b\"value\":" ++ sign ++
    "1.7e308,\"tags\":\x7b\"scenario\":\"checkout\"\x7d\x7d\x7d")

/-- Durations of either sign whose sum overflows. -/
def extremeFile : List UInt8 :=
  Run.unlines [extremeLine "", extremeLine "-", extremeLine "", extremeLine ""]

theorem freeOfNaN_extremeFile :
    (Run.ofBytes {} extremeFile).metrics.totalPoints < 2 ^ 64 ∧
      FreeOfNaN (Run.ofBytes {} extremeFile) {} := by
  have hcount : (Run.ofBytes {} extremeFile).metrics.totalPoints = 4 := by
    rw [Run.totalPoints_ofBytes]
    decide +kernel
  have hfits : (Run.ofBytes {} extremeFile).metrics.totalPoints < 2 ^ 64 := hcount ▸ by decide
  exact ⟨hfits, freeOfNaN_ofBytes _ _ hfits⟩

end LoadReport.Report
