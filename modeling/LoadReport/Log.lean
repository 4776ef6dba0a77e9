/-! # The log

Records have a level, the part of the program they come from, a message, and named fields.
-/

namespace LoadReport.Log

inductive Level where
  | error
  | warn
  | info
  | debug
  | trace
  deriving DecidableEq

/-- The higher, the more talkative. -/
def Level.rank : Level → Nat
  | .error => 1
  | .warn => 2
  | .info => 3
  | .debug => 4
  | .trace => 5

def Level.name : Level → String
  | .error => "ERROR"
  | .warn => "WARN"
  | .info => "INFO"
  | .debug => "DEBUG"
  | .trace => "TRACE"

structure Record where
  level : Level
  target : String
  message : String
  fields : List (String × String) := []
  deriving DecidableEq

namespace Record

def text (r : Record) : String :=
  r.level.name ++ " " ++ r.message ++
    String.join (r.fields.map fun (name, value) => " " ++ name ++ "=" ++ value)

/-- The message counts as a field. -/
def hasField (r : Record) (name : String) : Bool :=
  name = "message" || r.fields.any (·.1 = name)

end Record

end LoadReport.Log
