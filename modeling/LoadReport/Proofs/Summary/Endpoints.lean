import LoadReport.Proofs.Summary.Extremes
import LoadReport.Proofs.Timestamp.Range
import Mathlib.Data.List.Induction

/-! # Start and finish of a run

A run starts with the earliest timestamp of its duration points and finishes with the latest one. Of
several at the same instant the first one starts it and the last one finishes it. Nothing else in a
run has a part in this, and the time between the two can always be counted in microseconds.
-/

namespace LoadReport

def Point.timestamp? (p : Point) : Option Timestamp := p.time.bind Timestamp.parse?

namespace Summary

variable {ts : List Timestamp} {t u : Timestamp} {ps : List Point} {r : Run} {s : Settings}

theorem earliest_concat (ts : List Timestamp) (u : Timestamp) :
    earliest (ts ++ [u]) = some (match earliest ts with
      | none => u
      | some t => if t.le u then t else u) := by
  cases ts <;> simp [earliest]

theorem latest_concat (ts : List Timestamp) (u : Timestamp) :
    latest (ts ++ [u]) = some (match latest ts with
      | none => u
      | some t => if t.le u then u else t) := by
  cases ts <;> simp [latest]

/-- All timestamps before the earliest one are later. -/
theorem earliest_first (h : earliest ts = some t) :
    ∃ before after, ts = before ++ t :: after ∧ ∀ u ∈ before, ¬ u.le t := by
  induction ts using List.reverseRecOn generalizing t with
  | nil => simp [earliest] at h
  | append_singleton ts u ih =>
    rw [earliest_concat] at h
    cases ha : earliest ts with
    | none =>
      obtain rfl := earliest_eq_none_iff.mp ha
      obtain rfl : u = t := by simpa [ha] using h
      exact ⟨[], [], rfl, by simp⟩
    | some a =>
      simp only [ha, Option.some.injEq] at h
      split_ifs at h with hle
      · subst h
        obtain ⟨before, after, rfl, hbefore⟩ := ih ha
        exact ⟨before, after ++ [u], by simp, hbefore⟩
      · subst h
        refine ⟨ts, [], rfl, fun v hv hvu => hle ?_⟩
        exact Timestamp.le_trans ((earliest_spec ha).2 v hv) hvu

/-- All timestamps after the latest one are earlier. -/
theorem latest_last (h : latest ts = some t) :
    ∃ before after, ts = before ++ t :: after ∧ ∀ u ∈ after, ¬ t.le u := by
  induction ts using List.reverseRecOn generalizing t with
  | nil => simp [latest] at h
  | append_singleton ts u ih =>
    rw [latest_concat] at h
    cases ha : latest ts with
    | none =>
      obtain rfl := latest_eq_none_iff.mp ha
      obtain rfl : u = t := by simpa [ha] using h
      exact ⟨[], [], rfl, by simp⟩
    | some a =>
      simp only [ha, Option.some.injEq] at h
      split_ifs at h with hle
      · subst h
        exact ⟨ts, [], rfl, by simp⟩
      · subst h
        obtain ⟨before, after, rfl, hafter⟩ := ih ha
        refine ⟨before, after ++ [u], by simp, fun v hv => ?_⟩
        rcases List.mem_append.mp hv with hv | hv
        · exact hafter v hv
        · rwa [List.mem_singleton.mp hv]

/-- A point with the timestamp `t`, no point with an earlier one, and none with the same instant
before it. -/
structure Starts (ps : List Point) (t : Timestamp) : Prop where
  least : ∀ p ∈ ps, ∀ u ∈ p.timestamp?, t.le u
  first : ∃ before p after, ps = before ++ p :: after ∧ p.timestamp? = some t ∧
    ∀ q ∈ before, ∀ u ∈ q.timestamp?, ¬ u.le t

/-- A point with the timestamp `t`, no point with a later one, and none with the same instant after
it. -/
structure Finishes (ps : List Point) (t : Timestamp) : Prop where
  greatest : ∀ p ∈ ps, ∀ u ∈ p.timestamp?, u.le t
  last : ∃ before p after, ps = before ++ p :: after ∧ p.timestamp? = some t ∧
    ∀ q ∈ after, ∀ u ∈ q.timestamp?, ¬ t.le u

theorem times_eq (r : Run) (s : Settings) :
    times r s = (r.metrics.points s.metrics.duration).filterMap Point.timestamp? :=
  List.filterMap_filterMap ..

theorem starts_of_earliest (h : earliest (ps.filterMap Point.timestamp?) = some t) :
    Starts ps t := by
  constructor
  case least =>
    exact fun p hp u hu => (earliest_spec h).2 u (List.mem_filterMap.mpr ⟨p, hp, hu⟩)
  case first =>
    obtain ⟨before, after, hsplit, hbefore⟩ := earliest_first h
    obtain ⟨front, rest, rfl, rfl, hrest⟩ := List.filterMap_eq_append_iff.mp hsplit
    obtain ⟨skipped, p, back, rfl, hskipped, hp, -⟩ := List.filterMap_eq_cons_iff.mp hrest
    refine ⟨front ++ skipped, p, back, by simp, hp, fun q hq u hu => ?_⟩
    rcases List.mem_append.mp hq with hq | hq
    · exact hbefore u (List.mem_filterMap.mpr ⟨q, hq, hu⟩)
    · simp [hskipped q hq] at hu

theorem finishes_of_latest (h : latest (ps.filterMap Point.timestamp?) = some t) :
    Finishes ps t := by
  constructor
  case greatest =>
    exact fun p hp u hu => (latest_spec h).2 u (List.mem_filterMap.mpr ⟨p, hp, hu⟩)
  case last =>
    obtain ⟨before, after, hsplit, hafter⟩ := latest_last h
    obtain ⟨front, rest, rfl, -, hrest⟩ := List.filterMap_eq_append_iff.mp hsplit
    obtain ⟨skipped, p, back, rfl, -, hp, rfl⟩ := List.filterMap_eq_cons_iff.mp hrest
    refine ⟨front ++ skipped, p, back, by simp, hp, fun q hq u hu => ?_⟩
    exact hafter u (List.mem_filterMap.mpr ⟨q, hq, hu⟩)

theorem filterMap_timestamp_eq_nil_iff :
    ps.filterMap Point.timestamp? = [] ↔ ∀ p ∈ ps, p.timestamp? = none :=
  List.filterMap_eq_nil_iff

theorem written_of_mem_times (h : t ∈ times r s) : t.Written := by
  obtain ⟨_, _, ht⟩ := List.mem_filterMap.mp h
  exact Timestamp.written_of_parse? ht

/-- Any two timestamps are close enough to count the microseconds between them. -/
theorem microseconds?_eq_some (ht : t.Written) (hu : u.Written) :
    microseconds? (t.nanosecondsSince u) = some ((t.nanosecondsSince u).tdiv 1000) := by
  have hbounds := ht.nanosecondsSince_bounds hu
  have habs : ((t.nanosecondsSince u).tdiv 1000).natAbs = (t.nanosecondsSince u).natAbs / 1000 :=
    Int.natAbs_tdiv _ 1000
  have hfits : -9223372036854775808 ≤ (t.nanosecondsSince u).tdiv 1000 ∧
      (t.nanosecondsSince u).tdiv 1000 < 9223372036854775808 := by
    generalize t.nanosecondsSince u = n at hbounds habs
    generalize n.tdiv 1000 = m at habs
    omega
  simp [microseconds?, hfits]

theorem natAbs_lt_of_microseconds? {n m : ℤ} (h : microseconds? n = some m) :
    m.natAbs < 2 ^ 64 := by
  unfold microseconds? at h
  dsimp only at h
  split_ifs at h with hfits
  rw [← Option.some.inj h]
  simp only [Bool.and_eq_true, decide_eq_true_eq] at hfits
  omega

theorem natAbs_getD_microseconds?_lt (n : ℤ) : ((microseconds? n).getD 0).natAbs < 2 ^ 64 := by
  cases h : microseconds? n with
  | none => decide
  | some m => exact natAbs_lt_of_microseconds? h

/-- The points of the duration metric that have a timestamp. -/
def stamped (r : Run) (s : Settings) : List Point :=
  (r.metrics.points s.metrics.duration).filter (·.timestamp?.isSome)

theorem times_eq_filterMap_stamped (r : Run) (s : Settings) :
    times r s = (stamped r s).filterMap Point.timestamp? := by
  rw [times_eq, stamped, List.filterMap_filter]
  refine congrArg (List.filterMap · _) (funext fun p => ?_)
  cases p.timestamp? <;> simp

theorem seconds_of_none (h : earliest (times r s) = none) : (of r s).seconds = 0 := by
  simp only [of, h]

theorem seconds_of_some (ht : earliest (times r s) = some t) (hu : latest (times r s) = some u) :
    (of r s).seconds = secondsBetween t u := by
  simp only [of, ht, hu]

/-- Where start and finish of a run come from. -/
structure Endpoints (r : Run) (s : Settings) : Prop where
  start_eq_none_iff : (of r s).start = none ↔
    ∀ p ∈ r.metrics.points s.metrics.duration, p.timestamp? = none
  finish_eq_none_iff : (of r s).finish = none ↔
    ∀ p ∈ r.metrics.points s.metrics.duration, p.timestamp? = none
  start : ∀ t ∈ (of r s).start, Starts (r.metrics.points s.metrics.duration) t
  finish : ∀ t ∈ (of r s).finish, Finishes (r.metrics.points s.metrics.duration) t
  /-- Runs with the same duration points that have a timestamp agree, whatever else they hold. -/
  frame : ∀ r', stamped r' s = stamped r s →
    (of r' s).start = (of r s).start ∧ (of r' s).finish = (of r s).finish
  /-- The seconds never fall back on 0. -/
  microseconds : ∀ t ∈ (of r s).start, ∀ u ∈ (of r s).finish,
    ∃ n, microseconds? (u.nanosecondsSince t) = some n ∧ (of r s).seconds = Float.ofInt n / 1000000

/-- Start and finish of any run are the true extremes of its duration points. -/
theorem endpoints_of (r : Run) (s : Settings) : Endpoints r s := by
  have hstart : (of r s).start = earliest (times r s) := rfl
  have hfinish : (of r s).finish = latest (times r s) := rfl
  constructor
  case start_eq_none_iff =>
    rw [hstart, earliest_eq_none_iff, times_eq, filterMap_timestamp_eq_nil_iff]
  case finish_eq_none_iff =>
    rw [hfinish, latest_eq_none_iff, times_eq, filterMap_timestamp_eq_nil_iff]
  case start =>
    intro t ht
    rw [hstart, times_eq] at ht
    exact starts_of_earliest ht
  case finish =>
    intro t ht
    rw [hfinish, times_eq] at ht
    exact finishes_of_latest ht
  case frame =>
    intro r' h
    have htimes : times r' s = times r s := by
      rw [times_eq_filterMap_stamped, times_eq_filterMap_stamped, h]
    exact ⟨congrArg earliest htimes, congrArg latest htimes⟩
  case microseconds =>
    intro t ht u hu
    have htm := written_of_mem_times (earliest_spec (hstart ▸ ht)).1
    have hum := written_of_mem_times (latest_spec (hfinish ▸ hu)).1
    have hmicro := microseconds?_eq_some hum htm
    refine ⟨_, hmicro, ?_⟩
    rw [seconds_of_some (hstart ▸ ht) (hfinish ▸ hu), secondsBetween, hmicro, Option.getD_some]

end Summary

end LoadReport
