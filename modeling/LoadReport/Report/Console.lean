import LoadReport.Report.Column
import LoadReport.Report.Order
import LoadReport.Report.Row
import LoadReport.Report.Sink
import LoadReport.Summary

/-! # The console report

A banner with the title, the figures of the whole run, the statistics of durations and waiting
times, and a table of groups for scenarios and for products. Sections without data are left out.
-/

namespace LoadReport.Report.Console

def width : Nat := 60

def rule : String := String.ofList (List.replicate width '=')

def thinRule : String := String.ofList (List.replicate width '-')

def timeText : Option Timestamp → String
  | some t => t.text
  | none => "n/a"

def banner (title : String) : List String :=
  ["", rule, center width title, rule, ""]

def overall (s : Summary) : List String :=
  [ "Overall",
    thinRule,
    "Test start: " ++ timeText s.start,
    "Test end: " ++ timeText s.finish,
    "Total duration: " ++ figure s.seconds ++ "s (" ++ figure (s.seconds / 60) ++ "min)",
    "Total requests: " ++ count s.requests,
    if 0 < s.requests then
      "Failed requests: " ++ toString s.failed ++ " (" ++ figure s.failedRate ++ "%)"
    else "Failed requests: 0",
    "Errors: " ++ toString s.errors ++ " (" ++ figure s.errorRate ++ "%)",
    "TPS (requests/sec): " ++ figure s.throughput,
    "" ]

def durationRow (label : String) (x : Float) : String :=
  alignLeft 15 label ++ " " ++ alignRight 12 (figure x) ++ " " ++ alignRight 8 "ms"

def durations (metric : String) (s : Statistics) : List String :=
  [ "HTTP request duration (" ++ metric ++ ")",
    thinRule,
    alignLeft 15 "" ++ " " ++ alignRight 12 "value" ++ " " ++ alignRight 8 "unit",
    durationRow "avg" s.mean,
    durationRow "median" s.median,
    durationRow "min" s.min,
    durationRow "max" s.max,
    durationRow "P90" s.p90,
    durationRow "P95" s.p95,
    durationRow "P99" s.p99,
    "" ]

def waiting (metric : String) (s : Statistics) : List String :=
  [ "HTTP waiting time (" ++ metric ++ ")",
    thinRule,
    "avg: " ++ figure s.mean ++ "ms",
    "P95: " ++ figure s.p95 ++ "ms",
    "P99: " ++ figure s.p99 ++ "ms",
    "" ]

def tableRow (keyWidth : Nat) (r : Row) : String :=
  alignLeft keyWidth r.key ++ " " ++ alignRight 10 r.requests ++ " " ++ alignRight 12 r.mean ++
    " " ++ alignRight 12 r.p95 ++ " " ++ alignRight 12 r.p99

/-- The rows of groups. Groups without durations have none. -/
def rows (groups : List (String × Group)) : List Row :=
  groups.filterMap fun (key, g) => (Statistics.of? g.durations.toList).map (Row.of key g.count)

def tableHead (heading keyLabel : String) (keyWidth : Nat) : List String :=
  [ heading,
    thinRule,
    tableRow keyWidth ⟨keyLabel, "requests", "avg(ms)", "P95(ms)", "P99(ms)"⟩,
    thinRule ]

def groupTable (heading keyLabel : String) (keyWidth : Nat) (groups : List (String × Group)) :
    List String :=
  tableHead heading keyLabel keyWidth ++ (rows groups).map (tableRow keyWidth) ++ [""]

def lines (r : Run) (s : Settings) : List String :=
  banner s.title ++
  overall (Summary.of r s) ++
  ((Statistics.of? (r.metrics.values s.metrics.duration)).map
    (durations s.metrics.duration)).getD [] ++
  ((Statistics.of? (r.metrics.values s.metrics.waiting)).map
    (waiting s.metrics.waiting)).getD [] ++
  (if r.scenarios.isEmpty then []
    else groupTable "Response time by scenario" "scenario" 20 (scenarios r.scenarios)) ++
  (if r.products.isEmpty then []
    else groupTable "Response time by product" "product id" 10 (products r.products)) ++
  [rule, ""]

def pieces (r : Run) (s : Settings) : List String := (lines r s).map (· ++ "\n")

def text (r : Run) (s : Settings) : String := String.join (pieces r s)

/-! ## Writing the report -/

def putLine (line : String) : Writer Unit := put (line ++ "\n")

def putLines (ls : List String) : Writer Unit := putAll (ls.map (· ++ "\n"))

def putTable (heading keyLabel : String) (keyWidth : Nat) (groups : List (String × Group)) :
    Writer Unit := do
  putLines (tableHead heading keyLabel keyWidth)
  for (key, g) in groups do
    let some t := Statistics.of? g.durations.toList | continue
    putLine (tableRow keyWidth (Row.of key g.count t))
  putLine ""

def write (r : Run) (s : Settings) : Writer Unit := do
  putLines (banner s.title)
  putLines (overall (Summary.of r s))
  (Statistics.of? (r.metrics.values s.metrics.duration)).forM fun t =>
    putLines (durations s.metrics.duration t)
  (Statistics.of? (r.metrics.values s.metrics.waiting)).forM fun t =>
    putLines (waiting s.metrics.waiting t)
  (if r.scenarios.isEmpty then pure ()
    else putTable "Response time by scenario" "scenario" 20 (scenarios r.scenarios))
  (if r.products.isEmpty then pure ()
    else putTable "Response time by product" "product id" 10 (products r.products))
  putLines [rule, ""]

end LoadReport.Report.Console
