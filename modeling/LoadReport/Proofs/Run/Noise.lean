import LoadReport.Proofs.Run.Reading
import LoadReport.Proofs.Run.Truncation

/-! # Lines without a point

A line is skipped for one of many reasons, and for all of them it leaves no trace in a run. Every
other line adds one point. So lines without a point can stand anywhere in a results file.
-/

namespace LoadReport

namespace Json

variable {v : Json}

theorem string?_eq_some_iff {s : String} : v.string? = some s ↔ v = .string s := by
  cases v <;> simp [string?]

theorem members?_eq_some_iff {ms : List (String × Json)} :
    v.members? = some ms ↔ v = .object ms := by
  cases v <;> simp [members?]

end Json

namespace Observation

variable {l : List UInt8} {v : Json}

/-- An object of type `Point` with a metric and an object of data. -/
structure IsRecord (v : Json) : Prop where
  object : ∃ ms, v = .object ms
  kind : v.member? "type" = some (.string "Point")
  metric : ∃ m, v.member? "metric" = some (.string m)
  data : ∃ ms, v.member? "data" = some (.object ms)

/-- The reasons to skip a line. -/
inductive Skippable (l : List UInt8) : Prop where
  | blank (h : ∀ b ∈ l, b = 32 ∨ b = 9 ∨ b = 10 ∨ b = 12 ∨ b = 13)
  | notUtf8 (h : Utf8.decode? l = none)
  | malformed {cs : List Char} (h : Utf8.decode? l = some cs) (hcs : ¬ Json.Grammar.Valid cs)
  /-- Well-formed, but nested too deeply, with a number that is too large, or with half of a
  surrogate pair. -/
  | refused {cs : List Char} (h : Utf8.decode? l = some cs) (hcs : Json.Grammar.Valid cs)
    (hv : Json.parse? cs = none)
  | foreign {cs : List Char} {v : Json} (h : Utf8.decode? l = some cs)
    (hv : Json.parse? cs = some v) (hrecord : ¬ IsRecord v)

theorem ofJson?_of_isRecord (h : IsRecord v) : ∃ o, ofJson? v = some o := by
  obtain ⟨-, hkind, ⟨metric, hmetric⟩, ⟨ms, hdata⟩⟩ := h
  simp [ofJson?, hkind, hmetric, hdata, Json.string?, Json.members?]

theorem isRecord_of_ofJson? {o : Observation} (h : ofJson? v = some o) : IsRecord v := by
  have hobject := object_of_ofJson? h
  simp only [ofJson?, Option.bind_eq_bind, Option.bind_eq_some_iff, Json.string?_eq_some_iff] at h
  obtain ⟨_, hkind, kind, rfl, h⟩ := h
  split_ifs at h with hpoint
  subst hpoint
  simp only [Option.bind_eq_some_iff, Json.string?_eq_some_iff, Json.members?_eq_some_iff] at h
  obtain ⟨_, hmetric, metric, rfl, _, hdata, ms, rfl, -⟩ := h
  exact ⟨hobject, hkind, ⟨metric, hmetric⟩, ⟨ms, hdata⟩⟩

theorem all_isBlank_iff :
    l.all isBlank ↔ ∀ b ∈ l, b = 32 ∨ b = 9 ∨ b = 10 ∨ b = 12 ∨ b = 13 := by
  simp [isBlank, or_assoc]

/-- A line is skipped exactly for these reasons. -/
theorem skippable_iff : Skippable l ↔ ofLine? l = none := by
  constructor
  · intro h
    rw [ofLine?]
    split_ifs with hl
    · rfl
    cases h with
    | blank h => exact absurd (all_isBlank_iff.mpr h) hl
    | notUtf8 h => simp [h]
    | @malformed cs h hcs =>
      have hv : Json.parse? cs = none := by
        by_contra hne
        obtain ⟨v, hv⟩ := Option.ne_none_iff_exists'.mp hne
        exact hcs (Json.valid_of_parse? hv)
      simp [h, hv]
    | refused h _ hv => simp [h, hv]
    | @foreign cs v h hv hrecord =>
      have ho : ofJson? v = none := by
        by_contra hne
        obtain ⟨o, ho⟩ := Option.ne_none_iff_exists'.mp hne
        exact hrecord (isRecord_of_ofJson? ho)
      simp [h, hv, ho]
  · intro h
    rw [ofLine?] at h
    split_ifs at h with hl
    · exact .blank (all_isBlank_iff.mp hl)
    cases hcs : Utf8.decode? l with
    | none => exact .notUtf8 hcs
    | some cs =>
      cases hv : Json.parse? cs with
      | none =>
        by_cases hvalid : Json.Grammar.Valid cs
        · exact .refused hcs hvalid hv
        · exact .malformed hcs hvalid
      | some v =>
        refine .foreign hcs hv fun hrecord => ?_
        obtain ⟨o, ho⟩ := ofJson?_of_isRecord hrecord
        simp [hcs, hv, ho] at h

instance : DecidablePred Skippable := fun l =>
  decidable_of_iff ((ofLine? l).isNone) (by rw [Option.isNone_iff_eq_none, skippable_iff])

end Observation

namespace Run

open Observation (ofLine? Skippable)

variable {ls ls' : List (List UInt8)} {l : List UInt8}

/-- The second lines are the first with skippable lines put in anywhere. -/
inductive Noisy : List (List UInt8) → List (List UInt8) → Prop where
  | nil : Noisy [] []
  | line (l : List UInt8) {ls ls' : List (List UInt8)} (h : Noisy ls ls') :
    Noisy (l :: ls) (l :: ls')
  | noise {l : List UInt8} {ls ls' : List (List UInt8)} (hl : Skippable l) (h : Noisy ls ls') :
    Noisy ls (l :: ls')

theorem Noisy.append_noise {noise : List (List UInt8)} (hl : ∀ l ∈ noise, Skippable l)
    (h : Noisy ls ls') : Noisy ls (noise ++ ls') := by
  induction noise with
  | nil => exact h
  | cons l noise ih =>
    obtain ⟨hl, hnoise⟩ := List.forall_mem_cons.mp hl
    exact .noise hl (ih hnoise)

theorem Noisy.subset (h : Noisy ls ls') : ls ⊆ ls' := by
  induction h with
  | nil => exact List.Subset.refl _
  | line l _ ih => exact List.cons_subset_cons l ih
  | noise _ _ ih => exact List.Subset.trans ih (List.subset_cons_self _ _)

theorem Noisy.filterMap_eq (h : Noisy ls ls') : ls'.filterMap ofLine? = ls.filterMap ofLine? := by
  induction h with
  | nil => rfl
  | line l _ ih => rw [List.filterMap_cons, List.filterMap_cons, ih]
  | noise hl _ ih => rw [List.filterMap_cons_none (Observation.skippable_iff.mp hl), ih]

theorem observations_of_notMem (h : 10 ∉ l) : observations l = (ofLine? l).toList := by
  rw [observations, lines_of_notMem h]
  cases hl : ofLine? l <;> simp [hl]

theorem observations_unlines_eq_filterMap (h : ∀ l ∈ ls, 10 ∉ l) :
    observations (unlines ls) = ls.filterMap ofLine? := by
  rw [observations_unlines, List.filterMap_eq_flatMap_toList]
  exact List.flatMap_congr fun l hl => observations_of_notMem (h l hl)

theorem totalPoints_ofObservations (s : Settings) (os : List Observation) :
    (ofObservations s os).metrics.totalPoints = os.length := by
  rw [metrics_ofObservations, MetricSet.totalPoints_ofPairs, List.length_map]

/-- Every line that is not skipped adds one point. -/
theorem totalPoints_unlines (s : Settings) (h : ∀ l ∈ ls, 10 ∉ l) :
    (ofBytes s (unlines ls)).metrics.totalPoints = ls.countP fun l => ¬ Skippable l := by
  rw [ofBytes, totalPoints_ofObservations, observations_unlines_eq_filterMap h,
    List.length_filterMap_eq_countP]
  refine List.countP_congr fun l _ => ?_
  simp [Observation.skippable_iff, Option.isSome_iff_ne_none]

/-- Reading to the end leaves a run behind, whatever the bytes are. Skippable lines can be put in
anywhere without any effect, and every other line adds one point. A fault of the reader leaves no
run. -/
theorem run_of_noisy (s : Settings) (hlines : ∀ l ∈ ls', 10 ∉ l) (h : Noisy ls ls') :
    (∀ bytes, ∃ r, (Source.complete bytes).run s = .ok r) ∧
      (∃ r, (Source.complete (unlines ls)).run s = .ok r ∧
        (Source.complete (unlines ls')).run s = .ok r ∧
        r.metrics.totalPoints = ls.countP fun l => ¬ Skippable l) ∧
      ∀ bytes fault, (Source.failing bytes fault).run s = .error fault := by
  have hsub : ∀ l ∈ ls, 10 ∉ l := fun l hl => hlines l (h.subset hl)
  have heq : ofBytes s (unlines ls') = ofBytes s (unlines ls) := by
    rw [ofBytes, ofBytes, observations_unlines_eq_filterMap hlines,
      observations_unlines_eq_filterMap hsub, h.filterMap_eq]
  refine ⟨fun bytes => ⟨_, Source.run_complete s bytes⟩, ?_, Source.run_failing s⟩
  refine ⟨ofBytes s (unlines ls), Source.run_complete s _, ?_, totalPoints_unlines s hsub⟩
  rw [Source.run_complete, heq]

def vusLine : List UInt8 := Utf8.encode
  "\x7b\"type\":\"Point\",\"metric\":\"vus\",\"data\":\x7b\"value\":10\x7d\x7d"

def metricLine : List UInt8 := Utf8.encode
  "\x7b\"type\":\"Metric\",\"metric\":\"vus\",\"data\":\x7b\x7d\x7d"

def namelessLine : List UInt8 := Utf8.encode "\x7b\"type\":\"Point\",\"data\":\x7b\x7d\x7d"

/-- Lines without a point: blank, not in UTF-8, not closed, nested too deeply, with a number that is
too large, and of another type. -/
def idleLines : List (List UInt8) :=
  [ [9, 32, 13],
    [0xFF, 0xFE],
    Utf8.encode "[1, 2",
    List.replicate 128 91 ++ List.replicate 128 93,
    Utf8.encode "1e999",
    metricLine ]

/-- A point behind all of these and in front of a point without a metric. -/
theorem run_of_noisy_vusLine :
    (∀ l ∈ idleLines ++ [vusLine, namelessLine], 10 ∉ l) ∧
      Noisy [vusLine] (idleLines ++ [vusLine, namelessLine]) ∧
      (∀ bytes, ∃ r, (Source.complete bytes).run {} = .ok r) ∧
      (∃ r, (Source.complete (unlines [vusLine])).run {} = .ok r ∧
        (Source.complete (unlines (idleLines ++ [vusLine, namelessLine]))).run {} = .ok r ∧
        r.metrics.totalPoints = 1) ∧
      ∀ bytes fault, (Source.failing bytes fault).run {} = .error fault := by
  have hlines : ∀ l ∈ idleLines ++ [vusLine, namelessLine], 10 ∉ l := by decide +kernel
  have hidle : ∀ l ∈ idleLines, Skippable l := by decide +kernel
  have hnameless : Skippable namelessLine := by decide +kernel
  have h : Noisy [vusLine] (idleLines ++ [vusLine, namelessLine]) :=
    .append_noise hidle (.line vusLine (.noise hnameless .nil))
  have hcount : ([vusLine].countP fun l => ¬ Skippable l) = 1 := by decide +kernel
  have hrun := run_of_noisy {} hlines h
  rw [hcount] at hrun
  exact ⟨hlines, h, hrun⟩

end Run

end LoadReport
