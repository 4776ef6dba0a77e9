import LoadReport.Quoted

/-! # Command-line options

Options may stand anywhere before `--`. Each may be given once.
-/

namespace LoadReport

structure Options where
  input : String
  csv : Bool := false
  html : Bool := false
  settings : Option String := none
  verbose : Bool := false
  deriving DecidableEq

namespace Options

inductive Request where
  | run (o : Options)
  | version
  | help
  | misuse
  deriving DecidableEq

structure Draft where
  input : Option String := none
  csv : Bool := false
  html : Bool := false
  settings : Option String := none
  verbose : Bool := false

/-- Reading an argument goes on, waits for the file of the settings option, or ends. -/
inductive Step where
  | more (d : Draft)
  | awaitSettings (d : Draft)
  | stop (r : Request)

namespace Draft

def setCsv (d : Draft) : Step := if d.csv then .stop .misuse else .more { d with csv := true }

def setHtml (d : Draft) : Step := if d.html then .stop .misuse else .more { d with html := true }

def setVerbose (d : Draft) : Step :=
  if d.verbose then .stop .misuse else .more { d with verbose := true }

def setSettings (d : Draft) (path : List Char) : Step :=
  if path = [] || d.settings.isSome then .stop .misuse
  else .more { d with settings := some (String.ofList path) }

/-- There is one file, and its name is not empty. -/
def setInput (d : Draft) (path : List Char) : Step :=
  if path = [] || d.input.isSome then .stop .misuse
  else .more { d with input := some (String.ofList path) }

def long (d : Draft) (name : List Char) : Step :=
  match String.ofList name with
  | "csv" => d.setCsv
  | "html" => d.setHtml
  | "verbose" => d.setVerbose
  | "version" => .stop .version
  | "help" => .stop .help
  | "config" => .awaitSettings d
  | _ => .stop .misuse

/-- Only the settings option takes a value. -/
def longWithValue (d : Draft) (name value : List Char) : Step :=
  if name = "config".toList then d.setSettings value else .stop .misuse

/-- Short options in one argument. The settings option takes the rest of it, without an equals
sign, as its value. -/
def short (d : Draft) : List Char → Step
  | [] => .more d
  | 'v' :: r =>
    match d.setVerbose with
    | .more d => d.short r
    | s => s
  | 'V' :: _ => .stop .version
  | 'h' :: _ => .stop .help
  | ['c'] => .awaitSettings d
  | 'c' :: '=' :: value => d.setSettings value
  | 'c' :: value => d.setSettings value
  | _ => .stop .misuse

/-- An argument before `--` that is not a value. -/
def argument (d : Draft) : List Char → Step
  | '-' :: '-' :: name =>
    match name.span (· ≠ '=') with
    | (name, []) => d.long name
    | (name, _ :: value) => d.longWithValue name value
  | '-' :: c :: r => d.short (c :: r)
  | path => d.setInput path

def finish (d : Draft) : Request :=
  match d.input with
  | none => .misuse
  | some input =>
    .run { input, csv := d.csv, html := d.html, settings := d.settings, verbose := d.verbose }

/-- Whether an argument cannot be the value of an option. -/
def isOption : List Char → Bool
  | '-' :: _ :: _ => true
  | _ => false

/-- After `--` every argument is a file. -/
def files (d : Draft) : List (List Char) → Request
  | [] => d.finish
  | path :: rest =>
    match d.setInput path with
    | .more d => d.files rest
    | .awaitSettings _ => .misuse
    | .stop r => r

def arguments (d : Draft) : List (List Char) → Request
  | [] => d.finish
  | ['-', '-'] :: rest => d.files rest
  | a :: rest =>
    match d.argument a with
    | .more d => d.arguments rest
    | .stop r => r
    | .awaitSettings d =>
      match rest with
      | [] => .misuse
      | value :: rest =>
        if isOption value then .misuse
        else match d.setSettings value with
          | .more d => d.arguments rest
          | .awaitSettings _ => .misuse
          | .stop r => r

end Draft

/-- Arguments are read from left to right; the first that ends the reading decides. -/
def parse (args : List String) : Request := Draft.arguments {} (args.map String.toList)

def logText (o : Options) : String :=
  let settings := match o.settings with
    | none => "None"
    | some p => "Some(" ++ Quoted.text p ++ ")"
  "Cli \x7b json_file: " ++ Quoted.text o.input ++ ", csv: " ++ toString o.csv ++
    ", html: " ++ toString o.html ++ ", config: " ++ settings ++
    ", verbose: " ++ toString o.verbose ++ " \x7d"

end Options

end LoadReport
