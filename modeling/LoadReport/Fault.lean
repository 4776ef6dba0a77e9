/-! # Faults and failures

A fault is what goes wrong in reading or writing bytes; a failure is what ends a run.
-/

namespace LoadReport

inductive Fault where
  | notFound
  | notADirectory
  | isADirectory
  | nameTooLong
  | tooManyLinks
  | notUtf8
  | other (message : String)
  deriving DecidableEq

def Fault.message : Fault → String
  | .notFound => "No such file or directory (os error 2)"
  | .notADirectory => "Not a directory (os error 20)"
  | .isADirectory => "Is a directory (os error 21)"
  | .nameTooLong => "File name too long (os error 36)"
  | .tooManyLinks => "Too many levels of symbolic links (os error 40)"
  | .notUtf8 => "stream did not contain valid UTF-8"
  | .other m => m

/-- The bytes that are still accepted, and the fault when there are more. -/
structure Limit where
  room : Nat
  fault : Fault
  deriving DecidableEq

/-- Malformed lines of a results file are no failures. -/
inductive Failure where
  | read (path : String) (fault : Fault)
  | write (path : String) (fault : Fault)
  | settings (path : String)
  | console (fault : Fault)
  deriving DecidableEq

namespace Failure

/-- What is wrong with a settings file is not told. -/
def message : Failure → String
  | .read path fault => "failed to read " ++ path ++ ": " ++ fault.message
  | .write path fault => "failed to write " ++ path ++ ": " ++ fault.message
  | .settings path => "invalid config " ++ path ++ ": "
  | .console fault => "failed to print report: " ++ fault.message

def fault? : Failure → Option Fault
  | .read _ f | .write _ f | .console f => some f
  | .settings _ => none

end Failure

end LoadReport
