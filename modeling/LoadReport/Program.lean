import LoadReport.Log.Filter
import LoadReport.Options
import LoadReport.Report.Console
import LoadReport.Report.File
import LoadReport.Run.File
import LoadReport.Settings.File

/-! # The program

Reads the settings and a results file, prints the console report, and writes the report files that
are asked for. The first failure ends the run.
-/

namespace LoadReport.Program

def logTarget : String := "analyze"

/-- What ends a run early: a failure, or a panic over a line that cannot be printed. -/
inductive Stop where
  | failure (f : Failure)
  | panic (fault : Fault)
  deriving DecidableEq

abbrev Procedure := Process Stop

instance : MonadLift Action Procedure where
  monadLift x := x.adapt .failure

/-- Prints a line. That this fails is not provided for. -/
def announce (line : String) : Procedure Unit := Process.print .panic (Report.put (line ++ "\n"))

def run (o : Options) : Procedure Unit := do
  let settings ← Settings.load o.settings
  Action.log ⟨.debug, logTarget, "resolved config", [("config", settings.logText)]⟩
  let run ← Run.load o.input settings
  Process.print (fun fault => .failure (.console fault)) (Report.Console.write run settings)
  if o.csv then
    let path := Path.output o.input "csv"
    let _ ← Report.saveCsv path run settings
    announce ("CSV file written: " ++ path)
  if o.html then
    let path := Path.output o.input "html"
    Report.saveHtml path run settings
    announce ("HTML report written: " ++ path)

structure Outcome where
  status : Nat
  stdout : Report.Sink
  message : Option String
  /-- The log records that are shown, the earliest first. -/
  log : List Log.Record
  files : FileTree

def Outcome.output (out : Outcome) : String := out.stdout.text

def conclude (shows : Log.Record → Bool) : Except Stop Unit × Session → Outcome
  | (.ok (), σ) => ⟨0, σ.stdout, none, σ.log.reverse.filter shows, σ.files⟩
  | (.error (.failure f), σ) =>
    ⟨1, σ.stdout, some ("error: " ++ f.message), σ.log.reverse.filter shows, σ.files⟩
  | (.error (.panic fault), σ) =>
    ⟨101, σ.stdout, some ("failed printing to stdout: " ++ fault.message),
      σ.log.reverse.filter shows, σ.files⟩

def execute (o : Options) (session : Session) : Except Stop Unit × Session :=
  (do
    Action.log ⟨.debug, logTarget, "parsed CLI arguments", [("cli", o.logText)]⟩
    run o : Procedure Unit).run session

def usage : String :=
  "Usage: analyze [OPTIONS] <JSON_FILE>\n\n" ++
  "Options:\n" ++
  "      --csv              Write every metric point to <JSON_FILE>.csv\n" ++
  "      --html             Write an HTML summary to <JSON_FILE>.html\n" ++
  "  -c, --config <CONFIG>  Config file path; without it, analyze.toml is used when present\n" ++
  "  -v, --verbose          Debug logging\n" ++
  "  -h, --help             Print help\n" ++
  "  -V, --version          Print version\n"

def filter (verbose : Bool) (wanted : Option String) : Log.Filter :=
  (wanted.bind Log.Filter.parse?).getD (Log.Filter.standard verbose)

/-- The whole program. Misuse of the command line has status 2, and that the answer to a question
cannot be printed does not matter. -/
def invoke (args : List String) (logFilter : Option String) (files : FileTree)
    (stdout : Report.Sink := {}) : Outcome :=
  let answer (text : String) : Outcome :=
    ⟨0, ((Report.put text).run.run stdout).2, none, [], files⟩
  match Options.parse args with
  | .version => answer "analyze 0.1.0\n"
  | .help => answer usage
  | .misuse => ⟨2, stdout, none, [], files⟩
  | .run o => conclude (filter o.verbose logFilter).shows (execute o { files, stdout })

end LoadReport.Program
