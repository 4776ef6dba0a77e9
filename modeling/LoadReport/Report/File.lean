import LoadReport.Report.Csv
import LoadReport.Report.Html
import LoadReport.Session

/-! # Report files -/

namespace LoadReport.Report

def saveCsv (path : String) (r : Run) (s : Settings) : Action Nat := do
  let n ← Action.writeFile path (Csv.write r s)
  Action.log ⟨.info, "k6_analyze::report::csv", "wrote CSV report",
    [("path", path), ("rows", toString n)]⟩
  return n

def saveHtml (path : String) (r : Run) (s : Settings) : Action Unit := do
  let text := Html.text r s
  Action.writeFile path (put text)
  Action.log ⟨.info, "k6_analyze::report::html", "wrote HTML report",
    [("path", path), ("bytes", toString text.utf8ByteSize)]⟩

end LoadReport.Report
