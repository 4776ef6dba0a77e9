import LoadReport.Summary
import LoadReport.Proofs.Timestamp.Instant
import Mathlib.Data.List.Perm.Basic

/-! # The first and the last timestamp

The earliest and the latest of some timestamps are among them and bound all of them, so that the
instants of both do not depend on the order of the timestamps.
-/

namespace LoadReport.Summary

variable {ts : List Timestamp} {t u : Timestamp}

/-- A fold that always keeps one of two elements, related to both, ends with one of the elements,
related to all. -/
theorem foldl_extreme {α : Type*} {r : α → α → Prop} (refl : ∀ a, r a a)
    (trans : ∀ {a b c}, r a b → r b c → r a c) {f : α → α → α}
    (choice : ∀ a b, f a b = a ∨ f a b = b) (left : ∀ a b, r (f a b) a)
    (right : ∀ a b, r (f a b) b) (l : List α) (a : α) :
    l.foldl f a ∈ a :: l ∧ ∀ b ∈ a :: l, r (l.foldl f a) b := by
  induction l generalizing a with
  | nil => simp [refl]
  | cons c l ih =>
    obtain ⟨hmem, hle⟩ := ih (f a c)
    have hf := hle _ List.mem_cons_self
    refine ⟨?_, ?_⟩
    · rcases List.mem_cons.mp hmem with he | he
      · rw [List.foldl_cons, he]
        rcases choice a c with h | h <;> simp [h]
      · simp [he]
    · intro b hb
      rcases List.mem_cons.mp hb with rfl | hb
      · exact trans hf (left _ _)
      · rcases List.mem_cons.mp hb with rfl | hb
        · exact trans hf (right _ _)
        · exact hle b (List.mem_cons_of_mem _ hb)

theorem earliest_spec (h : earliest ts = some t) : t ∈ ts ∧ ∀ u ∈ ts, t.le u := by
  cases ts with
  | nil => simp [earliest] at h
  | cons a ts =>
    rw [← Option.some.inj h]
    refine foldl_extreme (r := fun a b => a.le b) Timestamp.le_refl Timestamp.le_trans ?_ ?_ ?_ ts a
    · intro a b
      split_ifs <;> simp
    · intro a b
      split_ifs with hab
      · exact a.le_refl
      · exact Timestamp.le_of_not_le hab
    · intro a b
      split_ifs with hab
      · exact hab
      · exact b.le_refl

theorem latest_spec (h : latest ts = some t) : t ∈ ts ∧ ∀ u ∈ ts, u.le t := by
  cases ts with
  | nil => simp [latest] at h
  | cons a ts =>
    rw [← Option.some.inj h]
    refine foldl_extreme (r := fun a b => b.le a) Timestamp.le_refl
      (fun h h' => Timestamp.le_trans h' h) ?_ ?_ ?_ ts a
    · intro a b
      split_ifs <;> simp
    · intro a b
      split_ifs with hab
      · exact hab
      · exact a.le_refl
    · intro a b
      split_ifs with hab
      · exact b.le_refl
      · exact Timestamp.le_of_not_le hab

theorem earliest_eq_none_iff : earliest ts = none ↔ ts = [] := by cases ts <;> simp [earliest]

theorem latest_eq_none_iff : latest ts = none ↔ ts = [] := by cases ts <;> simp [latest]

end LoadReport.Summary
