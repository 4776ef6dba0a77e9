import LoadReport.Report.Number
import LoadReport.Statistics

/-! # Rows of group tables -/

namespace LoadReport.Report

structure Row where
  key : String
  requests : String
  mean : String
  p95 : String
  p99 : String
  deriving DecidableEq

def Row.of (key : String) (requests : Nat) (s : Statistics) : Row where
  key
  requests := count requests
  mean := figure s.mean
  p95 := figure s.p95
  p99 := figure s.p99

end LoadReport.Report
