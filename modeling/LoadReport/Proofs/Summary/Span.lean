import LoadReport.Proofs.Binary64.Arithmetic
import LoadReport.Proofs.Run.Contents
import LoadReport.Proofs.Run.Reordering
import LoadReport.Proofs.Summary.Endpoints
import Mathlib.Tactic.MkIffOfInductiveProp

/-! # The sign of the span

The order of timestamps and their difference disagree in one place. A leap second that ends a day of
UTC counts for nothing in a difference with the next day, since the second of the day is smaller
there. So a run that starts late in such a leap second and finishes right after it has a negative
length.
-/

namespace LoadReport

namespace Timestamp

variable {a b : Timestamp}

/-- The timestamp `a` lies in a leap second at the end of a day of UTC, and `b` in the first second
of the next day, by its fraction at least a microsecond before `a`. -/
@[mk_iff]
structure CrossesMidnight (a b : Timestamp) : Prop where
  secondOfDay : a.secondOfDay = 86399
  unix : b.unix = a.unix + 1
  fraction : b.fraction + 1000001000 ≤ a.fraction

theorem tdiv_thousand_neg_iff {n : ℤ} : n.tdiv 1000 < 0 ↔ n ≤ -1000 := by
  rw [Int.tdiv_eq_ediv, show Int.sign 1000 = 1 from rfl]
  split_ifs with h <;> omega

/-- Of timestamps in order, only those across a leap second at midnight have a negative
difference. -/
theorem Written.microseconds_neg_iff (ha : a.Written) (hb : b.Written) (h : a.le b) :
    (b.nanosecondsSince a).tdiv 1000 < 0 ↔ CrossesMidnight a b := by
  have haf := ha.fraction_lt
  have hbf := hb.fraction_lt
  have hbleap := hb.unix_emod_of_leap
  rw [le_iff] at h
  rw [tdiv_thousand_neg_iff, crossesMidnight_iff, nanosecondsSince, secondOfDay, secondOfDay]
  simp only [Bool.and_eq_true, decide_eq_true_eq]
  split_ifs with hfirst hsecond <;> omega

end Timestamp

namespace Summary

open Binary64 Timestamp

variable {r : Run} {s : Settings} {a b : Timestamp}

theorem zero_le_secondsBetween_iff (ha : a.Written) (hb : b.Written) (h : a.le b) :
    0 ≤ secondsBetween a b ↔ ¬ CrossesMidnight a b := by
  have hmicro := microseconds?_eq_some hb ha
  have habs := natAbs_lt_of_microseconds? hmicro
  rw [← ha.microseconds_neg_iff hb h, not_lt, secondsBetween, hmicro, Option.getD_some]
  exact zero_le_ofInt_div habs (by decide) (by decide)

/-- The length of a run is negative exactly if the run starts in a leap second at midnight and
finishes right after it, at an earlier part of a second. -/
theorem zero_le_seconds_iff (r : Run) (s : Settings) :
    0 ≤ (of r s).seconds ↔
      ∀ a ∈ (of r s).start, ∀ b ∈ (of r s).finish, ¬ CrossesMidnight a b := by
  have hstart : (of r s).start = earliest (times r s) := rfl
  have hfinish : (of r s).finish = latest (times r s) := rfl
  rw [hstart, hfinish]
  cases ha : earliest (times r s) with
  | none =>
    have hzero : (0 : Float) ≤ 0 := by decide
    rw [seconds_of_none ha]
    exact iff_of_true hzero (by simp)
  | some a =>
    obtain ⟨b, hb⟩ : ∃ b, latest (times r s) = some b := by
      rw [← Option.ne_none_iff_exists', ne_eq, latest_eq_none_iff, ← earliest_eq_none_iff, ha]
      exact Option.some_ne_none a
    have hle : a.le b := (earliest_spec ha).2 b (latest_spec hb).1
    have hsign := zero_le_secondsBetween_iff (written_of_mem_times (earliest_spec ha).1)
      (written_of_mem_times (latest_spec hb).1) hle
    rw [seconds_of_some ha hb, hb]
    simpa using hsign

/-- A request in a leap second at the end of a year, and one at the beginning of the next year. -/
def newYearFile : List UInt8 := Run.unlines [
  Utf8.encode ("\x7b\"type\":\"Point\",\"metric\":\"http_req_duration\",\"data\":\x7b" ++
    "\"value\":120,\"time\":\"2016-12-31T23:59:60.9Z\"\x7d\x7d"),
  Utf8.encode ("\x7b\"type\":\"Point\",\"metric\":\"http_req_duration\",\"data\":\x7b" ++
    "\"value\":80,\"time\":\"2017-01-01T00:00:00Z\"\x7d\x7d"),
  Utf8.encode ("\x7b\"type\":\"Point\",\"metric\":\"http_reqs\",\"data\":\x7b" ++
    "\"value\":1,\"time\":\"2017-01-01T00:00:00Z\"\x7d\x7d")]

/-- The run on these requests takes −0.9 seconds, and so it has no throughput. -/
theorem seconds_newYearFile :
    (of (Run.ofBytes {} newYearFile) {}).seconds = -0.9 ∧
      ¬ 0 ≤ (of (Run.ofBytes {} newYearFile) {}).seconds ∧
      (of (Run.ofBytes {} newYearFile) {}).requests = 1 ∧
      (of (Run.ofBytes {} newYearFile) {}).throughput = 0 := by
  have htimes : times (Run.ofBytes {} newYearFile) {} =
      [⟨2016, 12, 31, 23, 59, 60, 900000000, 0⟩, ⟨2017, 1, 1, 0, 0, 0, 0, 0⟩] := by
    rw [times_eq, Run.points_ofBytes]
    decide +kernel
  have hseconds : (of (Run.ofBytes {} newYearFile) {}).seconds = -0.9 := by
    dsimp only [of]
    rw [htimes]
    decide +kernel
  have hrequests : (of (Run.ofBytes {} newYearFile) {}).requests = 1 := by
    dsimp only [of]
    rw [Run.points_ofBytes]
    decide +kernel
  have hthroughput : (of (Run.ofBytes {} newYearFile) {}).throughput = 0 := by
    change (if 0 < (of (Run.ofBytes {} newYearFile) {}).seconds then _ else _) = _
    rw [hseconds]
    exact if_neg (by decide +kernel)
  refine ⟨hseconds, ?_, hrequests, hthroughput⟩
  rw [hseconds]
  decide +kernel

end Summary

end LoadReport
