import LoadReport.Quoted
import LoadReport.Session
import LoadReport.Settings
import LoadReport.Toml.Document

/-! # The settings file

A TOML document with the sections `metrics`, `tags` and `report`. Whatever is missing keeps its
default, and unknown keys are ignored.
-/

namespace LoadReport.Settings

open Toml (Value Entries)

/-- A field must be a string. -/
def field? : Option Value → Option (Option String)
  | none => some none
  | some (.string s) => some (some s)
  | some _ => none

/-- The fields of a section that is missing, a table, or an array in which the fields stand in
order. A date has none of the fields. -/
def section? (names : List String) : Option Value → Option (List (Option String))
  | none => some (names.map fun _ => none)
  | some (.table _ es) => names.mapM fun n => field? (es.lookup n)
  | some (.array items) => names.zipIdx.mapM fun (_, i) => field? items[i]?
  | some (.dateTime _) => some (names.map fun _ => none)
  | some _ => none

def ofEntries? (es : Entries) : Option Settings := do
  let d : Settings := {}
  let metrics ← section? ["duration", "waiting", "requests", "failed", "errors"]
    (es.lookup "metrics")
  let tags ← section? ["scenario", "product"] (es.lookup "tags")
  let report ← section? ["title"] (es.lookup "report")
  match metrics, tags, report with
  | [duration, waiting, requests, failed, errors], [scenario, product], [title] =>
    return {
      metrics :=
        { duration := duration.getD d.metrics.duration
          waiting := waiting.getD d.metrics.waiting
          requests := requests.getD d.metrics.requests
          failed := failed.getD d.metrics.failed
          errors := errors.getD d.metrics.errors }
      tags :=
        { scenario := scenario.getD d.tags.scenario
          product := product.getD d.tags.product }
      title := title.getD d.title }
  | _, _, _ => none

def parse? (text : List Char) : Option Settings := do
  ofEntries? (← Toml.Document.parse? text)

def defaultPath : String := "analyze.toml"

/-- The settings in a file, or the default ones if the default file is not there. A file that is
given must be there. -/
def load (path : Option String) : Action Settings := do
  let file := path.getD defaultPath
  match (← Action.files).readText file with
  | .error .notFound =>
    if path = none then
      Action.log
        ⟨.debug, "k6_analyze::config", "no config file, using defaults", [("path", file)]⟩
      return {}
    else throw (.read file .notFound)
  | .error fault => throw (.read file fault)
  | .ok text =>
    match parse? text with
    | some s => return s
    | none => throw (.settings file)

def logText (s : Settings) : String :=
  let item (name value : String) := name ++ ": " ++ Quoted.text value
  let braces (name : String) (items : List String) :=
    name ++ " \x7b " ++ ", ".intercalate items ++ " \x7d"
  braces "AnalyzeConfig" [
    "metrics: " ++ braces "MetricNames" [
      item "duration" s.metrics.duration,
      item "waiting" s.metrics.waiting,
      item "requests" s.metrics.requests,
      item "failed" s.metrics.failed,
      item "errors" s.metrics.errors],
    "tags: " ++ braces "TagKeys" [
      item "scenario" s.tags.scenario,
      item "product" s.tags.product],
    "report: " ++ braces "ReportConfig" [item "title" s.title]]

end LoadReport.Settings
