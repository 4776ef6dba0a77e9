import LoadReport.FileTree
import LoadReport.Log
import LoadReport.Report.Sink

/-! # Sessions

What a running program has done so far: the files as they are now, what it has printed, and its log.
An action may end the run with a failure; what was done before it stays done.
-/

namespace LoadReport

structure Session where
  files : FileTree
  stdout : Report.Sink := {}
  /-- The latest record first. -/
  log : List Log.Record := []

/-- What is done in a session, until something of the type `ε` ends the run. -/
abbrev Process (ε : Type) := ExceptT ε (StateM Session)

namespace Process

variable {ε α : Type}

def ofFault (stop : Fault → ε) : Except Fault α → Process ε α
  | .ok a => return a
  | .error f => throw (stop f)

def print (stop : Fault → ε) (x : Report.Writer Unit) : Process ε Unit := do
  let (r, stdout) := x.run.run (← get).stdout
  modify fun s => { s with stdout }
  ofFault stop r

end Process

abbrev Action := Process Failure

namespace Action

def log (record : Log.Record) : Action Unit :=
  modify fun s => { s with log := record :: s.log }

def files : Action FileTree := return (← get).files

def bufferSize : Nat := 8192

/-- Opens a file, writes it through a buffer and flushes this. When the file is closed what still
waits is tried once more. -/
def writeFile {α : Type} (path : String) (x : Report.Writer α) : Action α := do
  let (files, n) ← Process.ofFault (.write path) ((← files).create path)
  let (r, sink) := (do
    let a ← x
    Report.flush
    return a : Report.Writer α).run.run { limit := files.limit, buffer := some ⟨bufferSize, #[]⟩ }
  let (_, sink) := Report.flush.run.run sink
  modify fun s => { s with files := files.close n sink.accepted.toList sink.limit }
  Process.ofFault (.write path) r

end Action

end LoadReport
