import LoadReport.Report.Order
import LoadReport.Report.Row
import LoadReport.Run

/-! # The HTML report

A static page with three headline figures and a table of scenarios. Titles and names are escaped,
so they cannot add markup.
-/

namespace LoadReport.Report.Html

def replace (c : Char) (t : String) (s : List Char) : List Char :=
  s.flatMap fun d => if d = c then t.toList else [d]

/-- The characters with a meaning in markup and their entities. The ampersand is the first, since
every entity has one. -/
def entities : List (Char × String) :=
  [('&', "&amp;"), ('<', "&lt;"), ('>', "&gt;"), ('"', "&quot;"), ('\'', "&#39;")]

def escape (s : String) : String :=
  String.ofList (entities.foldl (fun cs (c, t) => replace c t cs) s.toList)

def style : List String :=
  [ "body \x7b font-family: Arial, sans-serif; margin: 20px; background: #f5f5f5; \x7d",
    ".container \x7b max-width: 1200px; margin: 0 auto; background: white; padding: 30px; " ++
      "border-radius: 8px; box-shadow: 0 2px 4px rgba(0,0,0,0.1); \x7d",
    "h1 \x7b color: #333; border-bottom: 3px solid #667eea; padding-bottom: 10px; \x7d",
    "table \x7b width: 100%; border-collapse: collapse; margin: 20px 0; \x7d",
    "th \x7b background: #667eea; color: white; padding: 12px; text-align: left; \x7d",
    "td \x7b padding: 10px; border-bottom: 1px solid #ddd; \x7d",
    ".metric \x7b display: inline-block; margin: 10px 20px 10px 0; padding: 15px 20px; " ++
      "background: #f0f0f0; border-radius: 5px; \x7d",
    ".metric-label \x7b font-size: 12px; color: #666; \x7d",
    ".metric-value \x7b font-size: 24px; font-weight: bold; color: #333; \x7d" ]

def headline (label value : String) : List String :=
  [ "            <div class=\"metric\">",
    "                <div class=\"metric-label\">" ++ label ++ "</div>",
    "                <div class=\"metric-value\">" ++ value ++ "</div>",
    "            </div>" ]

def tableLine (cells : List String) : List String :=
  ["                <tr>"] ++ cells ++ ["                </tr>"]

def headerCell (s : String) : String := "                    <th>" ++ s ++ "</th>"

def cell (s : String) : String := "                    <td>" ++ s ++ "</td>"

def headers : List String :=
  ["Scenario", "Requests", "Avg (ms)", "P95 (ms)", "P99 (ms)"].map headerCell

def cells (r : Row) : List String :=
  [cell (escape r.key), cell r.requests, cell r.mean, cell r.p95, cell r.p99]

def tableHead : List String :=
  ["            <thead>"] ++ tableLine headers ++ ["            </thead>"]

def tableRow (r : Row) : List String := tableLine (cells r)

/-- The rows of groups. Groups without durations have none. -/
def rows (groups : List (String × Group)) : List Row :=
  groups.filterMap fun (key, g) =>
    (Statistics.of? g.durations.toList).map fun s => Row.of key s.count s

/-- Without durations their figures are 0. -/
def headlines (r : Run) (s : Settings) : List String :=
  let durations := Statistics.of? (r.metrics.values s.metrics.duration)
  headline "Total requests" (count (r.metrics.points s.metrics.requests).length) ++
  headline "Avg response time" (figure ((durations.map (·.mean)).getD 0) ++ "ms") ++
  headline "P95 response time" (figure ((durations.map (·.p95)).getD 0) ++ "ms")

def head (s : Settings) : List String :=
  [ "<head>",
    "    <meta charset=\"UTF-8\">",
    "    <title>" ++ escape s.title ++ "</title>",
    "    <style>" ] ++
  style.map ("        " ++ ·) ++
  [ "    </style>",
    "</head>" ]

def opening (r : Run) (s : Settings) : List String :=
  [ "<!DOCTYPE html>",
    "<html>" ] ++
  head s ++
  [ "<body>",
    "    <div class=\"container\">",
    "        <h1>" ++ escape s.title ++ "</h1>",
    "",
    "        <div>" ] ++
  headlines r s ++
  [ "        </div>",
    "",
    "        <h2>Performance by scenario</h2>",
    "        <table>" ]

def closing : List String :=
  [ "        </table>",
    "    </div>",
    "</body>",
    "</html>" ]

def lines (r : Run) (s : Settings) : List String :=
  opening r s ++
  tableHead ++
  ["            <tbody>"] ++
  (rows (scenarios r.scenarios)).flatMap tableRow ++
  ["            </tbody>"] ++
  closing

def text (r : Run) (s : Settings) : String := String.join ((lines r s).map (· ++ "\n"))

end LoadReport.Report.Html
