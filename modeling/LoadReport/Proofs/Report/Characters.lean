import LoadReport.Report.Console
import Mathlib.Data.Nat.Notation
import Mathlib.Tactic.Tauto

/-! # Characters of reports

Numbers and times are written with digits and a few marks, so a character that is foreign to them
occurs in a report only where a fixed text or a name has it, or where a figure is NaN.
-/

namespace LoadReport.Report

/-- How often a character occurs in a text. -/
def occurrences (c : Char) (a : String) : ℕ := a.toList.count c

section Texts

variable {c : Char} {a b : String} {cs : List Char}

theorem occurrences_eq_zero : occurrences c a = 0 ↔ c ∉ a.toList := List.count_eq_zero

theorem occurrences_ofList (h : c ∉ cs) : occurrences c (String.ofList cs) = 0 := by
  rwa [occurrences_eq_zero, String.toList_ofList]

@[simp]
theorem occurrences_append (a b : String) :
    occurrences c (a ++ b) = occurrences c a + occurrences c b := by
  rw [occurrences, String.toList_append, List.count_append]
  rfl

theorem occurrences_append_eq_zero :
    occurrences c (a ++ b) = 0 ↔ occurrences c a = 0 ∧ occurrences c b = 0 := by
  rw [occurrences_append, Nat.add_eq_zero_iff]

theorem occurrences_join_eq_zero {ls : List String} (h : ∀ l ∈ ls, occurrences c l = 0) :
    occurrences c (String.join ls) = 0 := by
  induction ls with
  | nil => rfl
  | cons l ls ih =>
    obtain ⟨hl, hls⟩ := List.forall_mem_cons.mp h
    rw [String.join_cons, occurrences_append, hl, ih hls]

end Texts

/-! ## Numbers and times -/

section Members

variable {c : Char} {x : Float} {n width : ℕ}

theorem mem_separated {ds : List Char} (h : c ∈ separated ds) : c = ',' ∨ c ∈ ds := by
  fun_induction separated ds with
  | case1 a b c d r ih =>
    simp only [List.mem_cons] at h ih ⊢
    tauto
  | case2 ds => exact .inr h

theorem isDigit_of_mem_toString (h : c ∈ (toString n).toList) : c.isDigit := by
  change c ∈ (String.ofList (Nat.toDigits 10 n)).toList at h
  rw [String.toList_ofList] at h
  exact Nat.isDigit_of_mem_toDigits (by decide) (by decide) h

theorem mem_count (h : c ∈ (count n).toList) : c = ',' ∨ c.isDigit := by
  rw [count, String.toList_ofList, List.mem_reverse] at h
  refine (mem_separated h).imp_right fun h => ?_
  exact isDigit_of_mem_toString (List.mem_reverse.mp h)

theorem isDigit_of_mem_zeroPadded (h : c ∈ (Decimal.zeroPadded width n).toList) : c.isDigit := by
  rw [Decimal.zeroPadded, String.toList_append, List.mem_append, String.toList_ofList] at h
  rcases h with h | h
  · rw [List.eq_of_mem_replicate h]
    decide
  · exact isDigit_of_mem_toString h

/-- The characters of figures. Letters stand only in NaN and in infinities. -/
theorem mem_figure (h : c ∈ (figure x).toList) :
    c.isDigit ∨ c ∈ ['-', '.', 'i', 'n', 'f'] ∨ x.isNaN ∧ c ∈ ['N', 'a', 'N'] := by
  have hsign : (if Binary64.isNegative x then "-" else "").toList ⊆ ['-', '.', 'i', 'n', 'f'] := by
    split
    · exact List.subset_append_left ['-'] ['.', 'i', 'n', 'f']
    · exact List.nil_subset _
  rw [figure, Decimal.fixed] at h
  split at h
  case isTrue hnan => exact .inr (.inr ⟨hnan, h⟩)
  case isFalse =>
    dsimp only at h
    generalize (if Binary64.isNegative x then "-" else "") = sign at h hsign
    split at h
    · have hinf : "inf".toList ⊆ ['-', '.', 'i', 'n', 'f'] :=
        List.subset_append_right ['-', '.'] ['i', 'n', 'f']
      rw [String.toList_append, List.mem_append] at h
      rcases h with h | h
      · exact .inr (.inl (hsign h))
      · exact .inr (.inl (hinf h))
    · simp only [String.toList_append, List.mem_append] at h
      rcases h with ((h | h) | h) | h
      · exact .inr (.inl (hsign h))
      · exact .inl (isDigit_of_mem_toString h)
      · obtain rfl : c = '.' := List.mem_singleton.mp h
        exact .inr (.inl (by decide))
      · exact .inl (isDigit_of_mem_zeroPadded h)

end Members

/-- What numbers and times have besides digits, if they are not NaN. -/
def marks : List Char := [' ', ',', '-', '.', '/', ':', 'a', 'f', 'i', 'n']

/-- A character that numbers and times do not have, if they are not NaN. -/
class Foreign (c : Char) : Prop where
  isDigit_eq : c.isDigit = false
  notMem_marks : c ∉ marks

instance : Foreign '\n' := ⟨by decide, by decide⟩

instance : Foreign '<' := ⟨by decide, by decide⟩

instance : Foreign 'N' := ⟨by decide, by decide⟩

section Foreign

variable {c : Char} [Foreign c] {a : String} {x : Float}

theorem occurrences_of_forall (h : ∀ d ∈ a.toList, d.isDigit ∨ d ∈ marks) :
    occurrences c a = 0 := by
  rw [occurrences_eq_zero]
  intro hc
  rcases h c hc with hdigit | hmark
  · exact Bool.false_ne_true (Foreign.isDigit_eq.symm.trans hdigit)
  · exact Foreign.notMem_marks hmark

theorem occurrences_of_subset (h : a.toList ⊆ marks) : occurrences c a = 0 :=
  occurrences_of_forall fun _ hd => .inr (h hd)

@[simp]
theorem occurrences_blanks (n : ℕ) : occurrences c (blanks n) = 0 := by
  refine occurrences_of_forall fun d hd => ?_
  rw [blanks, String.toList_ofList] at hd
  rw [List.eq_of_mem_replicate hd]
  exact .inr (by decide)

@[simp]
theorem occurrences_alignLeft (n : ℕ) (a : String) :
    occurrences c (alignLeft n a) = occurrences c a := by simp [alignLeft]

@[simp]
theorem occurrences_alignRight (n : ℕ) (a : String) :
    occurrences c (alignRight n a) = occurrences c a := by simp [alignRight]

@[simp]
theorem occurrences_center (n : ℕ) (a : String) :
    occurrences c (center n a) = occurrences c a := by simp [center]

@[simp]
theorem occurrences_repr (n : ℕ) : occurrences c n.repr = 0 :=
  occurrences_of_forall fun _ hd => .inl (isDigit_of_mem_toString hd)

@[simp]
theorem occurrences_count (n : ℕ) : occurrences c (count n) = 0 := by
  refine occurrences_of_forall fun d hd => ?_
  obtain rfl | hdigit := mem_count hd
  · exact .inr (by decide)
  · exact .inl hdigit

@[simp]
theorem occurrences_zeroPadded (width n : ℕ) : occurrences c (Decimal.zeroPadded width n) = 0 :=
  occurrences_of_forall fun _ hd => .inl (isDigit_of_mem_zeroPadded hd)

@[simp]
theorem occurrences_timeText (t : Option Timestamp) : occurrences c (Console.timeText t) = 0 := by
  cases t with
  | none => exact occurrences_of_subset (by decide)
  | some t =>
    have hdash : occurrences c "-" = 0 := occurrences_of_subset (by decide)
    have hblank : occurrences c " " = 0 := occurrences_of_subset (by decide)
    have hcolon : occurrences c ":" = 0 := occurrences_of_subset (by decide)
    simp [Console.timeText, Timestamp.text, hdash, hblank, hcolon]

/-- Figures have a foreign character only as NaN. -/
theorem occurrences_figure (h : x.isNaN = false ∨ c ≠ 'N') : occurrences c (figure x) = 0 := by
  rw [occurrences_eq_zero]
  intro hc
  obtain hdigit | hmark | ⟨hnan, hletter⟩ := mem_figure hc
  · exact Bool.false_ne_true (Foreign.isDigit_eq.symm.trans hdigit)
  · have hsubset : ['-', '.', 'i', 'n', 'f'] ⊆ marks := by decide
    exact Foreign.notMem_marks (hsubset hmark)
  · obtain hnumber | hne := h
    · exact Bool.false_ne_true (hnumber.symm.trans hnan)
    · obtain rfl : c = 'a' := by simpa [hne] using hletter
      exact Foreign.notMem_marks (by decide : 'a' ∈ marks)

end Foreign

end LoadReport.Report
