import LoadReport.Proofs.Run.Reordering
import Mathlib.Data.List.TakeWhile

/-! # Reading line by line

A file is read one line at a time, and each line is either recorded or skipped. A file that is read
to its end leaves the run of all its lines behind; a fault leaves none, however far the reading has
come.
-/

namespace LoadReport

variable {s : Settings} {r : Run} {l bytes : List UInt8} {source rest : Source} {fault : Fault}

namespace Run

theorem lines_of_notMem (h : 10 ∉ l) : lines l = [l] := by
  refine List.splitOnP_eq_singleton fun b hb => beq_false_of_ne ?_
  rintro rfl
  exact h hb

theorem foldl_recordLine (ls : List (List UInt8)) (r : Run) :
    ls.foldl (recordLine s) r = (ls.filterMap Observation.ofLine?).foldl (record s) r := by
  rw [List.foldl_filterMap]
  refine congrArg (List.foldl · r ls) (funext₂ fun r l => ?_)
  rw [recordLine]
  cases Observation.ofLine? l <;> rfl

end Run

namespace Source

theorem eq_of_next_finished (h : source.next = .finished) : source = complete [] := by
  unfold next at h
  split at h
  · rfl
  all_goals split at h <;> cases h

theorem of_next_broken (h : source.next = .broken fault) :
    ∃ bytes, source = failing bytes fault := by
  unfold next at h
  split at h
  · cases h
  · split at h <;> cases h
  · split at h
    · cases h
      exact ⟨_, rfl⟩
    · cases h

theorem eq_append_of_dropWhile {b : UInt8} {q : List UInt8}
    (h : bytes.dropWhile (· ≠ 10) = b :: q) :
    10 ∉ bytes.takeWhile (· ≠ 10) ∧ bytes = bytes.takeWhile (· ≠ 10) ++ 10 :: q := by
  have hb : b = 10 := by
    have := List.head?_dropWhile_not (· ≠ (10 : UInt8)) bytes
    rw [h] at this
    simpa using this
  refine ⟨fun hm => ?_, ?_⟩
  · simpa using List.mem_takeWhile_imp hm
  · conv_lhs => rw [← List.takeWhile_append_dropWhile (p := (· ≠ (10 : UInt8))) (l := bytes), h, hb]

/-- A line is followed by a line feed and what is left, or it is all there is. -/
theorem of_next_line (h : source.next = .line l rest) : 10 ∉ l ∧
    ((source = complete l ∧ rest = complete []) ∨
      ∃ q, (source = complete (l ++ 10 :: q) ∧ rest = complete q) ∨
        ∃ fault, source = failing (l ++ 10 :: q) fault ∧ rest = failing q fault) := by
  unfold next at h
  split at h
  · cases h
  · split at h
    · rename_i hdrop
      cases h
      have hmem : 10 ∉ l := fun hm => by
        have := List.dropWhile_eq_nil_iff.mp hdrop 10 hm
        simp at this
      exact ⟨hmem, .inl ⟨rfl, rfl⟩⟩
    · rename_i hdrop
      cases h
      obtain ⟨hmem, he⟩ := eq_append_of_dropWhile hdrop
      exact ⟨hmem, .inr ⟨_, .inl ⟨congrArg complete he, rfl⟩⟩⟩
  · split at h
    · cases h
    · rename_i hdrop
      cases h
      obtain ⟨hmem, he⟩ := eq_append_of_dropWhile hdrop
      exact ⟨hmem, .inr ⟨_, .inr ⟨_, congrArg (failing · _) he, rfl⟩⟩⟩

/-- What is left to read is recorded on top of what has been read. -/
theorem readOn_complete (s : Settings) (r : Run) (bytes : List UInt8) :
    readOn s r (complete bytes) = .ok ((Run.lines bytes).foldl (Run.recordLine s) r) := by
  generalize hsource : complete bytes = source
  fun_induction readOn s r source generalizing bytes with
  | case1 r source hnext =>
    obtain rfl := eq_of_next_finished hnext
    cases hsource
    rfl
  | case2 r source fault hnext =>
    obtain ⟨_, rfl⟩ := of_next_broken hnext
    cases hsource
  | case3 r source l rest hnext _ ih =>
    obtain ⟨hl, ⟨rfl, rfl⟩ | ⟨q, ⟨rfl, rfl⟩ | ⟨fault, rfl, rfl⟩⟩⟩ := of_next_line hnext
    · cases hsource
      rw [ih [] rfl, Run.lines_of_notMem hl]
      rfl
    · cases hsource
      rw [ih q rfl, Run.lines_append, Run.lines_of_notMem hl]
      rfl
    · cases hsource

/-- A fault is met in the end, whatever has been read before it. -/
theorem readOn_failing (s : Settings) (r : Run) (bytes : List UInt8) (fault : Fault) :
    readOn s r (failing bytes fault) = .error fault := by
  generalize hsource : failing bytes fault = source
  fun_induction readOn s r source generalizing bytes with
  | case1 r source hnext =>
    obtain rfl := eq_of_next_finished hnext
    cases hsource
  | case2 r source fault hnext =>
    obtain ⟨_, rfl⟩ := of_next_broken hnext
    cases hsource
    rfl
  | case3 r source l rest hnext _ ih =>
    obtain ⟨-, ⟨rfl, rfl⟩ | ⟨q, ⟨rfl, rfl⟩ | ⟨fault, rfl, rfl⟩⟩⟩ := of_next_line hnext
    · cases hsource
    · cases hsource
    · cases hsource
      exact ih q rfl

theorem run_complete (s : Settings) (bytes : List UInt8) :
    (complete bytes).run s = .ok (Run.ofBytes s bytes) := by
  rw [run, readOn_complete, Run.foldl_recordLine]
  rfl

theorem run_failing (s : Settings) (bytes : List UInt8) (fault : Fault) :
    (failing bytes fault).run s = .error fault :=
  readOn_failing s {} bytes fault

end Source

end LoadReport
