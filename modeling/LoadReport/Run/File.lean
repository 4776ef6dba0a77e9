import LoadReport.Run
import LoadReport.Session

/-! # The results file -/

namespace LoadReport

/-- Where the bytes of an inode that is open come from. A directory fails at the first byte. -/
def Source.ofInode (i : Inode) : Source :=
  match i.object, i.damage with
  | .file content, none => .complete content
  | .file content, some (n, reason) => .failing (content.take n) (.other reason)
  | .directory _ _, _ => .failing [] .isADirectory
  | .link _, _ => .failing [] .tooManyLinks

namespace Run

def logTarget : String := "k6_analyze::ingest"

def load (path : String) (s : Settings) : Action Run := do
  let i ← Process.ofFault (.read path) ((← Action.files).open? path)
  Action.log ⟨.info, logTarget, "parsing k6 results", [("path", path)]⟩
  let run ← Process.ofFault (.read path) ((Source.ofInode i).run s)
  if run.metrics.isEmpty then
    Action.log ⟨.warn, logTarget, "no Point records found", [("path", path)]⟩
  Action.log ⟨.info, logTarget, "parsed k6 results", [
    ("points", toString run.metrics.totalPoints),
    ("metrics", toString run.metrics.size),
    ("scenarios", toString run.scenarios.size),
    ("products", toString run.products.size)]⟩
  return run

end Run

end LoadReport
