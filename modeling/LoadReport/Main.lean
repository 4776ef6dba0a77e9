import LoadReport.Program

/-! # The command line

Loads the files that a run may look at, lets the program run on them, and carries out what it has
done: files that changed, the log, the output and the exit status.
-/

namespace LoadReport.Disk

def entry? (path : String) : IO (Option Entry) := do
  try
    return some (.file (← IO.FS.readBinFile path).data.toList)
  catch
    | .inappropriateType .. => return some .directory
    | _ => return none

def load (t : FileTree) (path : String) : IO FileTree := do
  match t.stat path with
  | .ok _ => return t
  | .error _ =>
    match ← entry? path with
    | some e => return t.place path e
    | none => return t

/-- A path and the paths of the directories on the way to it, the shortest first. -/
def ways (path : String) : List String :=
  let ss := Path.segments path.toList
  (List.range ss.length).map fun n => String.ofList (Path.join (ss.take (n + 1)))

def outputs (o : Options) : List String :=
  [Path.output o.input "csv", Path.output o.input "html"]

def paths (o : Options) : List String :=
  [o.settings.getD Settings.defaultPath, o.input] ++ outputs o

/-- Every path is taken for that of a file of its own. -/
def snapshot (args : List String) : IO FileTree :=
  match Options.parse args with
  | .run o => ((paths o).flatMap ways).foldlM load {}
  | _ => return {}

def save (args : List String) (before after : FileTree) : IO Unit :=
  match Options.parse args with
  | .run o => (outputs o).forM fun path =>
    match after.read path with
    | .error _ => return
    | .ok content =>
      if (before.read path).toOption = some content then return
      else IO.FS.writeBinFile path (ByteArray.mk content.toArray)
  | _ => return

end LoadReport.Disk

open LoadReport

def main (args : List String) : IO UInt32 := do
  let before ← Disk.snapshot args
  let o := Program.invoke args (← IO.getEnv "RUST_LOG") before
  if o.status = 2 then IO.eprint Program.usage
  o.log.forM fun r => IO.eprintln r.text
  IO.print o.output
  Disk.save args before o.files
  o.message.forM fun m => IO.eprintln m
  return o.status.toUInt32
