import LoadReport.Proofs.Run.Reading
import LoadReport.Proofs.Session
import LoadReport.Run.File
import LoadReport.Settings.File

/-! # Loading

The settings and the results are read from the files and change none of them. The results are those
of all the bytes of the file if it can be read.
-/

namespace LoadReport

open LoadReport.Action

namespace Settings

def loaded (path : Option String) (files : FileTree) : Except Failure Settings :=
  let file := path.getD defaultPath
  match files.readText file with
  | .error .notFound => if path = none then .ok {} else .error (.read file .notFound)
  | .error fault => .error (.read file fault)
  | .ok text => (parse? text).elim (.error (.settings file)) .ok

theorem answers_load (path : Option String) : (load path).Answers (loaded path) := by
  refine answers_files.bind (g := fun files _ => loaded path files) fun files => ?_
  dsimp only [loaded]
  cases files.readText (path.getD defaultPath) with
  | error fault =>
    cases fault with
    | notFound =>
      dsimp only
      split_ifs
      · exact (answers_log _).bind fun _ => answers_pure _
      · exact answers_throw _
    | notADirectory | isADirectory | nameTooLong | tooManyLinks | notUtf8 | other =>
      exact answers_throw _
  | ok text =>
    dsimp only
    cases parse? text with
    | none => exact answers_throw _
    | some s => exact answers_pure s

theorem quiet_load (path : Option String) : (load path).Quiet := (answers_load path).quiet

end Settings

theorem Source.run_ofInode (s : Settings) (i : Inode) :
    (ofInode i).run s = (FileTree.readInode i).map (Run.ofBytes s) := by
  obtain ⟨object, unreadable, unwritable, damage⟩ := i
  cases object with
  | file content =>
    cases damage with
    | none => exact run_complete s content
    | some damage => exact run_failing s _ _
  | directory => exact run_failing s [] .isADirectory
  | link => exact run_failing s [] .tooManyLinks

theorem Run.answers_load (path : String) (s : Settings) :
    (load path s).Answers fun t => ((t.read path).map (ofBytes s)).mapError (.read path) := by
  refine (answers_files.bind fun t => (answers_ofFault _ (t.open? path)).bind fun i =>
    (answers_log _).bind fun _ => (answers_ofFault _ ((Source.ofInode i).run s)).bind
      (g := fun run _ => .ok run) fun run => ?_).congr fun t => ?_
  · split
    · exact (answers_log _).bind fun _ => (answers_log _).bind fun _ => answers_pure run
    · exact (answers_log _).bind fun _ => answers_pure run
  · simp only [Source.run_ofInode]
    change (t.open? path).mapError (Failure.read path) >>= _ =
      ((t.open? path >>= FileTree.readInode).map (ofBytes s)).mapError (Failure.read path)
    cases t.open? path with
    | error fault => rfl
    | ok i =>
      dsimp only [bind, Except.bind, Except.mapError]
      cases FileTree.readInode i <;> rfl

end LoadReport
