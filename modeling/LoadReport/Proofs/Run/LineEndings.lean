import LoadReport.Proofs.Json.TrailingBlanks
import LoadReport.Proofs.Run.Truncation
import LoadReport.Proofs.Utf8.Prefix

/-! # Line endings

A carriage return at the end of a line is a blank behind its record, so a line is read in the same
way with it and without it, whether it holds a point or not. Hence both kinds of line endings may be
mixed in a results file.
-/

namespace LoadReport

/-- A carriage return at the end of a line changes nothing. -/
theorem Observation.ofLine?_concat (l : List UInt8) : ofLine? (l ++ [13]) = ofLine? l := by
  have hblank : (l ++ [13]).all isBlank = l.all isBlank := by
    rw [List.all_append]
    exact Bool.and_true _
  rw [ofLine?, ofLine?, hblank, Utf8.decode?_concat (by decide)]
  split_ifs
  · rfl
  cases Utf8.decode? l with
  | none => rfl
  | some cs =>
    have hreturn : ∀ c ∈ [Char.ofNat (13 : UInt8).toNat], Json.Token.isBlank c :=
      List.forall_mem_singleton.mpr (by decide)
    simp only [Option.map_some, Option.bind_eq_bind, Option.bind_some, Json.parse?_append hreturn]

namespace Run

variable {bytes : List UInt8} {l l' : List UInt8} {ls ls' : List (List UInt8)}

/-- A file with a carriage return in front of the line feeds at some places. -/
def withReturns (places : ℕ → Bool) (bytes : List UInt8) : List UInt8 :=
  bytes.zipIdx.flatMap fun (b, i) => if b = 10 ∧ places i then [13, 10] else [b]

/-- A line that is the same but for a carriage return at its end. -/
def Ends (l l' : List UInt8) : Prop := l' = l ∨ l' = l ++ [13]

theorem Ends.cons (h : Ends l l') (b : UInt8) : Ends (b :: l) (b :: l') := by
  rcases h with rfl | rfl
  · exact .inl rfl
  · exact .inr rfl

theorem Ends.ofLine?_eq (h : Ends l l') : Observation.ofLine? l' = Observation.ofLine? l := by
  rcases h with rfl | rfl
  · rfl
  · exact Observation.ofLine?_concat l

theorem forall₂_modifyHead (h : List.Forall₂ Ends ls ls') (b : UInt8) :
    List.Forall₂ Ends (ls.modifyHead (b :: ·)) (ls'.modifyHead (b :: ·)) := by
  cases h with
  | nil => exact .nil
  | cons hl hls => exact .cons (hl.cons b) hls

theorem lines_feed (bytes : List UInt8) : lines (10 :: bytes) = [] :: lines bytes := by
  rw [lines_cons, if_pos rfl]

theorem forall₂_lines (places : ℕ → Bool) (bytes : List UInt8) (n : ℕ) :
    List.Forall₂ Ends (lines bytes)
      (lines ((bytes.zipIdx n).flatMap fun (b, i) =>
        if b = 10 ∧ places i then [13, 10] else [b])) := by
  induction bytes generalizing n with
  | nil => exact .cons (.inl rfl) .nil
  | cons b bytes ih =>
    rw [List.zipIdx_cons, List.flatMap_cons]
    dsimp only
    by_cases hb : b = 10
    · subst hb
      rw [lines_feed]
      by_cases hn : places n
      · rw [if_pos ⟨rfl, hn⟩, List.cons_append, lines_cons, if_neg (by decide), List.singleton_append,
          lines_feed]
        exact .cons (.inr rfl) (ih (n + 1))
      · rw [if_neg fun h => hn h.2, List.singleton_append, lines_feed]
        exact .cons (.inl rfl) (ih (n + 1))
    · rw [if_neg fun h => hb h.1, List.singleton_append, lines_cons, lines_cons, if_neg hb, if_neg hb]
      exact forall₂_modifyHead (ih (n + 1)) b

theorem filterMap_eq_of_forall₂ (h : List.Forall₂ Ends ls ls') :
    ls'.filterMap Observation.ofLine? = ls.filterMap Observation.ofLine? := by
  induction h with
  | nil => rfl
  | cons hl _ ih => rw [List.filterMap_cons, List.filterMap_cons, hl.ofLine?_eq, ih]

/-- It makes no difference to a run which of its line feeds have a carriage return in front of them,
nor whether the last line is ended. -/
theorem ofBytes_withReturns (s : Settings) (places : ℕ → Bool) (bytes : List UInt8) :
    ofBytes s (withReturns places bytes) = ofBytes s bytes ∧
      ofBytes s (bytes ++ [10]) = ofBytes s bytes := by
  constructor
  · have hlines := filterMap_eq_of_forall₂ (forall₂_lines places bytes 0)
    exact congrArg (ofObservations s) hlines
  · have hend : observations (bytes ++ [10]) = observations bytes := by
      rw [observations_append]
      exact List.append_nil _
    exact congrArg (ofObservations s) hend

end Run

end LoadReport
