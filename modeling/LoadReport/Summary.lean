import LoadReport.Run
import LoadReport.Timestamp

/-! # Figures of a whole run -/

namespace LoadReport

@[ext]
structure Summary where
  start : Option Timestamp
  finish : Option Timestamp
  seconds : Float
  requests : Nat
  failed : Nat
  errors : Nat
  /-- Requests per second. -/
  throughput : Float
  /-- Errors as a percentage of requests. -/
  errorRate : Float
  /-- Failed requests as a percentage of requests. -/
  failedRate : Float

namespace Summary

/-- The earliest timestamp; the first one of several at the same instant. -/
def earliest : List Timestamp → Option Timestamp
  | [] => none
  | t :: ts => some (ts.foldl (fun a b => if a.le b then a else b) t)

/-- The latest timestamp; the last one of several at the same instant. -/
def latest : List Timestamp → Option Timestamp
  | [] => none
  | t :: ts => some (ts.foldl (fun a b => if a.le b then b else a) t)

/-- The whole microseconds in some nanoseconds, if a signed number of 64 bits can hold them. What is
left of a microsecond is dropped, on either side of zero. -/
def microseconds? (nanoseconds : Int) : Option Int :=
  let n := nanoseconds.tdiv 1000
  if -0x8000000000000000 ≤ n && n < 0x8000000000000000 then some n else none

/-- The seconds from one timestamp to another, counted in whole microseconds; 0 if these are too
many. -/
def secondsBetween (start finish : Timestamp) : Float :=
  Float.ofInt ((microseconds? (finish.nanosecondsSince start)).getD 0) / 1000000

def countOnes (points : List Point) : Nat := points.countP (·.value == 1)

/-- A part of a number of requests in percent; 0 of no requests. -/
def percentage (part requests : Nat) : Float :=
  if requests = 0 then 0 else Float.ofNat part / Float.ofNat requests * 100

/-- The timestamps of the duration points; a time that is no timestamp is left out. -/
def times (r : Run) (s : Settings) : List Timestamp :=
  ((r.metrics.points s.metrics.duration).filterMap (·.time)).filterMap Timestamp.parse?

def of (r : Run) (s : Settings) : Summary :=
  let start := earliest (times r s)
  let finish := latest (times r s)
  let seconds := match start, finish with
    | some a, some b => secondsBetween a b
    | _, _ => 0
  let requests := (r.metrics.points s.metrics.requests).length
  let failed := countOnes (r.metrics.points s.metrics.failed)
  let errors := countOnes (r.metrics.points s.metrics.errors)
  { start, finish, seconds, requests, failed, errors
    throughput := if 0 < seconds then Float.ofNat requests / seconds else 0
    errorRate := percentage errors requests
    failedRate := percentage failed requests }

end Summary

end LoadReport
