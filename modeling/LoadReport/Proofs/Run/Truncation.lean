import LoadReport.Proofs.Json.Closing
import LoadReport.Proofs.Json.TrailingBlanks
import LoadReport.Proofs.Run.Concatenation
import LoadReport.Proofs.Utf8.Prefix

/-! # Results files that are cut off

A line that is cut off holds a point only if the cut leaves the whole record, since no text goes on
after an object. So the run of the first part of a file is a first part of the run of the file.
-/

namespace LoadReport

variable {l bytes : List UInt8} {o : Observation} {n : ℕ}

/-- A blank line, or a JSON text in UTF-8. -/
def Run.ValidLine (l : List UInt8) : Prop :=
  l.all Observation.isBlank ∨ ∃ cs, Utf8.decode? l = some cs ∧ Json.Grammar.Valid cs

namespace Observation

theorem ofLine?_eq_some_iff : ofLine? l = some o ↔ ¬ l.all isBlank ∧
    ∃ cs v, Utf8.decode? l = some cs ∧ Json.parse? cs = some v ∧ ofJson? v = some o := by
  rw [ofLine?]
  split_ifs with hl <;> simp [hl, Option.bind_eq_some_iff]

theorem object_of_ofJson? {v : Json} (h : ofJson? v = some o) : ∃ ms, v = .object ms := by
  cases v with
  | object ms => exact ⟨ms, rfl⟩
  | _ => simp [ofJson?, Json.member?] at h

theorem isBlank_of_decode? {cs : List Char} (h : Utf8.decode? l = some cs)
    (hcs : ∀ c ∈ cs, Json.Token.isBlank c) : l.all isBlank := by
  have hblank : ∀ c ∈ cs, c.toNat = 32 ∨ c.toNat = 9 ∨ c.toNat = 10 ∨ c.toNat = 13 := by
    intro c hc
    have h := hcs c hc
    simp only [Json.Token.isBlank, Bool.or_eq_true, decide_eq_true_eq] at h
    rcases h with ((rfl | rfl) | rfl) | rfl <;> decide
  have hbytes : l.map (·.toNat) = cs.map (·.toNat) := by
    refine Utf8.map_toNat_of_decode? h fun c hc => ?_
    have hc := hblank c hc
    omega
  refine List.all_eq_true.mpr fun b hb => ?_
  obtain ⟨c, hc, he⟩ := List.mem_map.mp (hbytes ▸ List.mem_map_of_mem hb)
  have hc := hblank c hc
  simp only [isBlank, Bool.or_eq_true, decide_eq_true_eq, ← UInt8.toNat_inj, ← he,
    UInt8.reduceToNat]
  omega

/-- A line holds the point that a part of it holds, and nothing but white space after the part. -/
theorem ofLine?_of_take (hl : Run.ValidLine l) (h : ofLine? (l.take n) = some o) :
    (l.drop n).all isBlank ∧ ofLine? l = some o := by
  obtain ⟨hblank, cs, v, hcs, hv, ho⟩ := ofLine?_eq_some_iff.mp h
  have hl' : ¬ l.all isBlank := fun hb => by
    rw [← List.take_append_drop n l, List.all_append, Bool.and_eq_true] at hb
    exact hblank hb.1
  obtain ⟨ds, hds, hvalid⟩ := hl.resolve_left hl'
  rw [← List.take_append_drop n l] at hds
  obtain ⟨es, rfl, hes⟩ := Utf8.decode?_of_append hcs hds
  obtain ⟨ms, rfl⟩ := object_of_ofJson? ho
  have hrest : ∀ c ∈ es, Json.Token.isBlank c := Json.isBlank_of_valid_append hv hvalid
  rw [List.take_append_drop] at hds
  exact ⟨isBlank_of_decode? hes hrest,
    ofLine?_eq_some_iff.mpr ⟨hl', _, _, hds, (Json.parse?_append hrest cs).trans hv, ho⟩⟩

end Observation

namespace Run

theorem validLine_of_isSome
    (h : l.all Observation.isBlank ∨ ((Utf8.decode? l).bind Json.parse?).isSome) : ValidLine l := by
  refine h.imp_right fun h => ?_
  obtain ⟨v, hv⟩ := Option.isSome_iff_exists.mp h
  obtain ⟨cs, hcs, hv⟩ := Option.bind_eq_some_iff.mp hv
  exact ⟨cs, hcs, Json.valid_of_parse? hv⟩

theorem lines_cons (b : UInt8) (bytes : List UInt8) :
    lines (b :: bytes) =
      if b = 10 then [] :: lines bytes else (lines bytes).modifyHead (b :: ·) := by
  rw [lines, List.splitOn, List.splitOnP_cons_eq_if_modifyHead]
  simp [lines, List.splitOn]

/-- A cut leaves all lines before some line and the first part of that line. -/
theorem exists_lines_take (bytes : List UInt8) (n : ℕ) :
    ∃ before l after m, lines bytes = before ++ l :: after ∧
      lines (bytes.take n) = before ++ [l.take m] := by
  induction n generalizing bytes with
  | zero =>
    obtain ⟨l, after, h⟩ := List.exists_cons_of_ne_nil (l := lines bytes) (List.splitOnP_ne_nil _ _)
    exact ⟨[], l, after, 0, h, rfl⟩
  | succ n ih =>
    cases bytes with
    | nil => exact ⟨[], [], [], 0, rfl, rfl⟩
    | cons b bytes =>
      obtain ⟨before, l, after, m, hwhole, hcut⟩ := ih bytes
      rw [List.take_succ_cons, lines_cons, lines_cons, hwhole, hcut]
      split_ifs with hb
      · exact ⟨[] :: before, l, after, m, rfl, rfl⟩
      · cases before with
        | nil => exact ⟨[], b :: l, after, m + 1, rfl, rfl⟩
        | cons k before => exact ⟨(b :: k) :: before, l, after, m, rfl, rfl⟩

theorem observations_take (h : ∀ l ∈ lines bytes, ValidLine l) (n : ℕ) :
    observations (bytes.take n) <+: observations bytes := by
  obtain ⟨before, l, after, m, hwhole, hcut⟩ := exists_lines_take bytes n
  rw [observations, observations, hwhole, hcut, List.filterMap_append, List.filterMap_append]
  refine (List.prefix_append_right_inj _).mpr ?_
  cases ho : Observation.ofLine? (l.take m) with
  | none =>
    rw [List.filterMap_cons_none ho]
    exact List.nil_prefix
  | some o =>
    have hl : ValidLine l := h l (hwhole ▸ List.mem_append_right _ List.mem_cons_self)
    have ho' := (Observation.ofLine?_of_take hl ho).2
    rw [List.filterMap_cons_some ho, List.filterMap_cons_some ho']
    exact List.prefix_append [o] _

theorem points_take (s : Settings) (h : ∀ l ∈ lines bytes, ValidLine l) (n : ℕ) (metric : String) :
    (ofBytes s (bytes.take n)).metrics.points metric <+:
      (ofBytes s bytes).metrics.points metric := by
  obtain ⟨os, hos⟩ := observations_take h n
  rw [points_ofBytes, points_ofBytes, ← hos, pointsOf_append]
  exact List.prefix_append _ _

theorem durations_take {key k : String} {ps qs : List Point} (h : ps <+: qs) :
    GroupTable.durations (GroupTable.ofPoints key ps) k <+:
      GroupTable.durations (GroupTable.ofPoints key qs) k := by
  obtain ⟨rest, rfl⟩ := h
  rw [GroupTable.durations_ofPoints, GroupTable.durations_ofPoints, GroupTable.groupValues_append]
  exact List.prefix_append _ _

/-- A point with a blank after it, a blank line and a line that is no record. -/
def vusFile : List UInt8 := Utf8.encode
  ("\x7b\"type\":\"Point\",\"metric\":\"vus\",\"data\":\x7b\"value\":10\x7d\x7d \n" ++
    "\r\n" ++
    "[1, \"]\"]")

/-- A results file of JSON lines that is cut off anywhere has no point that the whole file has not.
The line at the cut has a point only if nothing but white space of it is missing. -/
theorem ofBytes_take (s : Settings) (n : ℕ) (h : ∀ l ∈ lines bytes, ValidLine l) :
    observations (bytes.take n) <+: observations bytes ∧
      (∃ before l after m, lines bytes = before ++ l :: after ∧
        lines (bytes.take n) = before ++ [l.take m] ∧
        ∀ o, Observation.ofLine? (l.take m) = some o →
          (l.drop m).all Observation.isBlank ∧ Observation.ofLine? l = some o) ∧
      (∀ metric, (ofBytes s (bytes.take n)).metrics.points metric <+:
        (ofBytes s bytes).metrics.points metric) ∧
      (∀ k, GroupTable.durations (ofBytes s (bytes.take n)).scenarios k <+:
        GroupTable.durations (ofBytes s bytes).scenarios k) ∧
      ∀ k, GroupTable.durations (ofBytes s (bytes.take n)).products k <+:
        GroupTable.durations (ofBytes s bytes).products k := by
  obtain ⟨before, l, after, m, hwhole, hcut⟩ := exists_lines_take bytes n
  have hl : ValidLine l := h l (hwhole ▸ List.mem_append_right _ List.mem_cons_self)
  refine ⟨observations_take h n, ⟨before, l, after, m, hwhole, hcut, fun o =>
    Observation.ofLine?_of_take hl⟩, points_take s h n, fun k => ?_, fun k => ?_⟩
  · rw [scenarios_ofBytes, scenarios_ofBytes]
    exact durations_take (points_take s h n _)
  · rw [products_ofBytes, products_ofBytes]
    exact durations_take (points_take s h n _)

/-- The file cut off before the blank. -/
theorem ofBytes_take_vusFile :
    (∀ l ∈ lines vusFile, ValidLine l) ∧
      observations (vusFile.take 51) <+: observations vusFile ∧
      (∃ before l after m, lines vusFile = before ++ l :: after ∧
        lines (vusFile.take 51) = before ++ [l.take m] ∧
        ∀ o, Observation.ofLine? (l.take m) = some o →
          (l.drop m).all Observation.isBlank ∧ Observation.ofLine? l = some o) ∧
      (∀ metric, (ofBytes {} (vusFile.take 51)).metrics.points metric <+:
        (ofBytes {} vusFile).metrics.points metric) ∧
      (∀ k, GroupTable.durations (ofBytes {} (vusFile.take 51)).scenarios k <+:
        GroupTable.durations (ofBytes {} vusFile).scenarios k) ∧
      ∀ k, GroupTable.durations (ofBytes {} (vusFile.take 51)).products k <+:
        GroupTable.durations (ofBytes {} vusFile).products k := by
  have hlines : ∀ l ∈ lines vusFile,
      l.all Observation.isBlank ∨ ((Utf8.decode? l).bind Json.parse?).isSome := by decide +kernel
  have h : ∀ l ∈ lines vusFile, ValidLine l := fun l hl => validLine_of_isSome (hlines l hl)
  exact ⟨h, ofBytes_take {} 51 h⟩

end Run

end LoadReport
