import LoadReport.Decimal.Shortest
import LoadReport.Report.Sink
import LoadReport.Run

/-! # The table of points

Comma-separated records: one for the header, then one for every point, series by series.
-/

namespace LoadReport.Report.Csv

/-- The names of the columns stay the same whatever the tag keys are. -/
def header : List String := ["timestamp", "metric", "value", "scenario", "productId"]

def needsQuotes (c : Char) : Bool := c = ',' || c = '"' || c = '\n' || c = '\r'

/-- A field with a comma, a quote or a line break is quoted, and its quotes are doubled. -/
def field (s : String) : String :=
  if s.toList.any needsQuotes then
    "\"" ++ String.ofList (s.toList.flatMap fun c => if c = '"' then ['"', '"'] else [c]) ++ "\""
  else s

def record (fields : List String) : String := ",".intercalate (fields.map field) ++ "\n"

/-- The fields of a point; what is absent is empty. -/
def fields (tags : TagKeys) (metric : String) (p : Point) : List String :=
  [ p.time.getD "",
    metric,
    Decimal.plain p.value,
    (p.tag? tags.scenario).getD "",
    (p.tag? tags.product).getD "" ]

def rows (r : Run) (s : Settings) : List (List String) :=
  r.metrics.toList.flatMap fun series => series.points.toList.map (fields s.tags series.name)

def pieces (r : Run) (s : Settings) : List String := (header :: rows r s).map record

def text (r : Run) (s : Settings) : String := String.join (pieces r s)

/-- Answers the number of points written. -/
def write (r : Run) (s : Settings) : Writer Nat := do
  put (record header)
  let mut written := 0
  for series in r.metrics.toList do
    for p in series.points do
      put (record (fields s.tags series.name p))
      written := written + 1
  return written

end LoadReport.Report.Csv
