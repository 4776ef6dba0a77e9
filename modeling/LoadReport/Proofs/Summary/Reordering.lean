import LoadReport.Proofs.Run.Reordering
import LoadReport.Proofs.Summary.Extremes

/-! # Figures do not depend on the order of lines

The figures of a whole run stay the same to the bit in any order of its lines, and its first and
last instant too. Only the offset of these may change, and it cannot if all offsets are equal.
-/

namespace LoadReport.Summary

open Timestamp

variable {r r' : Run} {s : Settings}

/-- An extreme of some timestamps has the same instant in whatever order they come. -/
theorem extreme_instant_eq_of_perm {extreme : List Timestamp → Option Timestamp}
    {R : Timestamp → Timestamp → Prop} (none_iff : ∀ {ts}, extreme ts = none ↔ ts = [])
    (spec : ∀ {ts t}, extreme ts = some t → t ∈ ts ∧ ∀ u ∈ ts, R t u)
    (anti : ∀ {t u}, R t u → R u t → t.instant = u.instant) {ts us : List Timestamp}
    (h : ts.Perm us) : (extreme ts).map instant = (extreme us).map instant := by
  cases ht : extreme ts with
  | none =>
    obtain rfl := none_iff.mp ht
    rw [List.nil_perm.mp h, ht]
  | some t =>
    cases hu : extreme us with
    | none =>
      obtain rfl := none_iff.mp hu
      rw [List.perm_nil.mp h, hu] at ht
      simp at ht
    | some u =>
      obtain ⟨htm, htl⟩ := spec ht
      obtain ⟨hum, hul⟩ := spec hu
      exact congrArg some (anti (htl u (h.mem_iff.mpr hum)) (hul t (h.mem_iff.mp htm)))

theorem earliest_instant_eq_of_perm {ts us : List Timestamp} (h : ts.Perm us) :
    (earliest ts).map instant = (earliest us).map instant :=
  extreme_instant_eq_of_perm earliest_eq_none_iff earliest_spec instant_eq_of_le_of_le h

theorem latest_instant_eq_of_perm {ts us : List Timestamp} (h : ts.Perm us) :
    (latest ts).map instant = (latest us).map instant :=
  extreme_instant_eq_of_perm latest_eq_none_iff latest_spec
    (fun h h' => instant_eq_of_le_of_le h' h) h

/-- The summaries agree in everything but the offsets of their first and last timestamp. -/
structure SameFigures (a b : Summary) : Prop where
  start : a.start.map instant = b.start.map instant
  finish : a.finish.map instant = b.finish.map instant
  seconds : a.seconds = b.seconds
  requests : a.requests = b.requests
  failed : a.failed = b.failed
  errors : a.errors = b.errors
  throughput : a.throughput = b.throughput
  errorRate : a.errorRate = b.errorRate
  failedRate : a.failedRate = b.failedRate

theorem secondsBetween_congr {a a' b b' : Timestamp} (ha : a.instant = a'.instant)
    (hb : b.instant = b'.instant) : secondsBetween a b = secondsBetween a' b' := by
  rw [secondsBetween, secondsBetween, nanosecondsSince_congr hb ha]

def span : Option Timestamp → Option Timestamp → Float
  | some a, some b => secondsBetween a b
  | _, _ => 0

theorem span_congr {a a' b b' : Option Timestamp} (ha : a.map instant = a'.map instant)
    (hb : b.map instant = b'.map instant) : span a b = span a' b' := by
  cases a <;> cases a' <;> simp at ha <;> cases b <;> cases b' <;> simp at hb
  all_goals first | rfl | exact secondsBetween_congr ha hb

theorem seconds_of (r : Run) (s : Settings) :
    (of r s).seconds = span (earliest (times r s)) (latest (times r s)) := by
  dsimp only [of]
  cases earliest (times r s) <;> cases latest (times r s) <;> rfl

theorem throughput_of (r : Run) (s : Settings) :
    (of r s).throughput =
      if 0 < (of r s).seconds then Float.ofNat (of r s).requests / (of r s).seconds else 0 := rfl

theorem errorRate_of (r : Run) (s : Settings) :
    (of r s).errorRate = percentage (of r s).errors (of r s).requests := rfl

theorem failedRate_of (r : Run) (s : Settings) :
    (of r s).failedRate = percentage (of r s).failed (of r s).requests := rfl

theorem times_perm (h : r.Reordered r') : (times r s).Perm (times r' s) :=
  ((h.points _).filterMap _).filterMap _

theorem sameFigures_of_reordered (h : r.Reordered r') : SameFigures (of r s) (of r' s) := by
  have hstart := earliest_instant_eq_of_perm (times_perm (s := s) h)
  have hfinish := latest_instant_eq_of_perm (times_perm (s := s) h)
  have hseconds : (of r s).seconds = (of r' s).seconds := by
    rw [seconds_of, seconds_of, span_congr hstart hfinish]
  have hrequests : (of r s).requests = (of r' s).requests := (h.points _).length_eq
  have hfailed : (of r s).failed = (of r' s).failed := (h.points _).countP_eq _
  have herrors : (of r s).errors = (of r' s).errors := (h.points _).countP_eq _
  exact {
    start := hstart
    finish := hfinish
    seconds := hseconds
    requests := hrequests
    failed := hfailed
    errors := herrors
    throughput := by rw [throughput_of, throughput_of, hseconds, hrequests]
    errorRate := by rw [errorRate_of, errorRate_of, herrors, hrequests]
    failedRate := by rw [failedRate_of, failedRate_of, hfailed, hrequests] }

theorem wellFormed_of_mem_times {t : Timestamp} (h : t ∈ times r s) : t.WellFormed := by
  obtain ⟨_, _, ht⟩ := List.mem_filterMap.mp h
  exact wellFormed_of_parse? ht

/-- Among timestamps of one offset the instant of an extreme tells which one it is. -/
theorem eq_of_instant_eq {o o' : Option Timestamp} {ts : List Timestamp}
    (hw : ∀ t ∈ ts, t.WellFormed) (ho : ∀ t ∈ ts, ∀ u ∈ ts, t.offset = u.offset)
    (hm : ∀ t ∈ o, t ∈ ts) (hm' : ∀ t ∈ o', t ∈ ts) (h : o.map instant = o'.map instant) :
    o = o' := by
  cases o with
  | none => simpa [eq_comm] using h
  | some t =>
    cases o' with
    | none => simp at h
    | some u =>
      have ht := hm t rfl
      have hu := hm' u rfl
      exact congrArg some ((hw t ht).eq_of_instant_eq (hw u hu) (Option.some.inj h) (ho t ht u hu))

theorem of_eq_of_reordered (h : r.Reordered r')
    (ho : ∀ t ∈ times r s, ∀ u ∈ times r s, t.offset = u.offset) : of r s = of r' s := by
  obtain ⟨hstart, hfinish, hseconds, hrequests, hfailed, herrors, hthroughput, herrorRate,
    hfailedRate⟩ := sameFigures_of_reordered (s := s) h
  have hw : ∀ t ∈ times r s, t.WellFormed := fun _ => wellFormed_of_mem_times
  have hmem : ∀ t, t ∈ times r' s → t ∈ times r s := fun _ => (times_perm h).mem_iff.mpr
  have hs : (of r s).start = (of r' s).start :=
    eq_of_instant_eq hw ho (fun _ ht => (earliest_spec ht).1)
      (fun t ht => hmem t (earliest_spec ht).1) hstart
  have hf : (of r s).finish = (of r' s).finish :=
    eq_of_instant_eq hw ho (fun _ ht => (latest_spec ht).1)
      (fun t ht => hmem t (latest_spec ht).1) hfinish
  exact Summary.ext hs hf hseconds hrequests hfailed herrors hthroughput herrorRate hfailedRate

end LoadReport.Summary
