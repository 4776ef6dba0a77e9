import LoadReport.Fault
import LoadReport.GroupTable
import LoadReport.Json.Parser
import LoadReport.Json.Printer
import LoadReport.MetricSet
import LoadReport.Settings
import LoadReport.Utf8

/-! # Reading a results file

A results file holds one JSON record a line. Lines that hold no point are skipped, whatever they
hold. Each point joins the series of its metric; a point of the duration metric also joins the
groups of its scenario and of its product.
-/

namespace LoadReport

structure Observation where
  metric : String
  point : Point
  deriving DecidableEq

namespace Observation

/-- The text of a tag: strings stand for themselves, null for no tag. -/
def tagText? : Json → Option String
  | .null => none
  | .string s => some s
  | v => some v.compact

def tags (data : Json) : List (String × String) :=
  (((data.member? "tags").bind Json.members?).getD []).filterMap fun (key, v) =>
    (tagText? v).map (key, ·)

/-- A value that is missing or not a number counts as 0. -/
def value (data : Json) : Float :=
  ((((data.member? "value").bind Json.number?).map Json.Number.toFloat).getD 0)

/-- A record of type `Point` with a metric and an object of data. -/
def ofJson? (v : Json) : Option Observation := do
  let kind ← (← v.member? "type").string?
  if kind = "Point" then
    let metric ← (← v.member? "metric").string?
    let data ← v.member? "data"
    let _ ← data.members?
    return ⟨metric, ⟨value data, (data.member? "time").bind Json.string?, tags data⟩⟩
  else none

def isBlank (b : UInt8) : Bool := b = 32 || b = 9 || b = 10 || b = 12 || b = 13

/-- The point on a line, if the line is not blank, is JSON in UTF-8 and holds one. -/
def ofLine? (line : List UInt8) : Option Observation :=
  if line.all isBlank then none
  else do ofJson? (← Json.parse? (← Utf8.decode? line))

end Observation

structure Run where
  metrics : MetricSet := {}
  scenarios : GroupTable := {}
  products : GroupTable := {}

namespace Run

/-- Groups the value of a point by a tag that is present and not empty. -/
def group (key : String) (p : Point) (t : GroupTable) : GroupTable :=
  match p.tag? key with
  | some v => if v = "" then t else t.record v p.value
  | none => t

def record (s : Settings) (r : Run) (o : Observation) : Run :=
  let r := { r with metrics := r.metrics.push o.metric o.point }
  if o.metric = s.metrics.duration then
    { r with
      scenarios := group s.tags.scenario o.point r.scenarios
      products := group s.tags.product o.point r.products }
  else r

/-- A line without a point is skipped. -/
def recordLine (s : Settings) (r : Run) (line : List UInt8) : Run :=
  match Observation.ofLine? line with
  | some o => record s r o
  | none => r

def ofObservations (s : Settings) (os : List Observation) : Run :=
  os.foldl (record s) {}

def lines (bytes : List UInt8) : List (List UInt8) := bytes.splitOn 10

def observations (bytes : List UInt8) : List Observation :=
  (lines bytes).filterMap Observation.ofLine?

def ofBytes (s : Settings) (bytes : List UInt8) : Run :=
  ofObservations s (observations bytes)

end Run

/-- Where the bytes of a results file come from: all of them, or some of them and then a fault. -/
inductive Source where
  | complete (bytes : List UInt8)
  | failing (bytes : List UInt8) (fault : Fault)

namespace Source

inductive Answer where
  | line (l : List UInt8) (rest : Source)
  | finished
  | broken (fault : Fault)

/-- A line ends at a line feed or with the last byte. A fault is met in looking for the end of a
line. -/
def next : Source → Answer
  | complete [] => .finished
  | complete bytes =>
    match bytes.dropWhile (· ≠ 10) with
    | [] => .line bytes (complete [])
    | _ :: rest => .line (bytes.takeWhile (· ≠ 10)) (complete rest)
  | failing bytes fault =>
    match bytes.dropWhile (· ≠ 10) with
    | [] => .broken fault
    | _ :: rest => .line (bytes.takeWhile (· ≠ 10)) (failing rest fault)

def size : Source → Nat
  | complete bytes => bytes.length
  | failing bytes _ => bytes.length

theorem length_lt_of_dropWhile {bytes rest : List UInt8} {b : UInt8}
    (h : bytes.dropWhile (· ≠ 10) = b :: rest) : rest.length < bytes.length := by
  have hle := (List.dropWhile_suffix (l := bytes) (· ≠ 10)).length_le
  rw [h, List.length_cons] at hle
  omega

theorem size_next_lt {source rest : Source} {l : List UInt8} (h : source.next = .line l rest) :
    rest.size < source.size := by
  unfold next at h
  split at h
  · cases h
  · rename_i bytes hne
    split at h
    · cases h
      exact List.length_pos_iff.mpr hne
    · rename_i hdrop
      cases h
      exact length_lt_of_dropWhile hdrop
  · split at h
    · cases h
    · rename_i hdrop
      cases h
      exact length_lt_of_dropWhile hdrop

def readOn (s : Settings) (r : Run) (source : Source) : Except Fault Run :=
  match h : source.next with
  | .finished => .ok r
  | .broken fault => .error fault
  | .line l rest =>
    have := size_next_lt h
    readOn s (r.recordLine s l) rest
termination_by source.size

def run (s : Settings) (source : Source) : Except Fault Run := readOn s {} source

end Source

end LoadReport
