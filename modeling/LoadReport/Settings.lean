/-! # Settings

Which metrics and tags the reports look at, and the title they carry.
-/

namespace LoadReport

structure MetricNames where
  duration : String := "http_req_duration"
  waiting : String := "http_req_waiting"
  requests : String := "http_reqs"
  failed : String := "http_req_failed"
  errors : String := "errors"
  deriving DecidableEq

/-- The tags by which request durations are grouped. -/
structure TagKeys where
  scenario : String := "scenario"
  product : String := "productId"
  deriving DecidableEq

structure Settings where
  metrics : MetricNames := {}
  tags : TagKeys := {}
  title : String := "k6 Performance Test Results"
  deriving DecidableEq

end LoadReport
