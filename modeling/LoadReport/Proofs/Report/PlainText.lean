import LoadReport.Report.Html
import LoadReport.Proofs.Report.Markup

/-! # Texts without markup

Replacing characters one after the other is one pass if no replacement has a character that is
replaced later. Escaped texts have no opening bracket, and the style sheet has neither that nor a
capital N.
-/

namespace LoadReport.Report

open Markup

namespace Html

variable {es : List (Char × String)} {c : Char}

/-- The entity of a character, or the character if it has none. -/
def entity (es : List (Char × String)) (c : Char) : List Char :=
  (es.lookup c).elim [c] String.toList

theorem entity_eq_singleton (h : ∀ e ∈ es, c ≠ e.1) : entity es c = [c] := by
  have hnone : es.lookup c = none :=
    List.lookup_eq_none_iff.mpr fun e he => bne_iff_ne.mpr (h e he)
  rw [entity, hnone]
  rfl

theorem entity_cases (es : List (Char × String)) (c : Char) :
    (∃ e ∈ es, c = e.1 ∧ entity es c = e.2.toList) ∨
      (∀ e ∈ es, c ≠ e.1) ∧ entity es c = [c] := by
  cases h : es.lookup c with
  | none =>
    have hne : ∀ e ∈ es, c ≠ e.1 := fun e he => bne_iff_ne.mp (List.lookup_eq_none_iff.mp h e he)
    exact .inr ⟨hne, entity_eq_singleton hne⟩
  | some t =>
    obtain ⟨l, m, hes, _⟩ := List.lookup_eq_some_iff.mp h
    refine .inl ⟨(c, t), ?_, rfl, ?_⟩
    · rw [hes]
      exact List.mem_append_right l List.mem_cons_self
    · rw [entity, h]
      rfl

theorem foldl_replace (h : es.Pairwise fun e f => f.1 ∉ e.2.toList) (s : List Char) :
    es.foldl (fun cs (c, t) => replace c t cs) s = s.flatMap (entity es) := by
  induction es generalizing s with
  | nil => exact (List.flatMap_singleton' s).symm
  | cons e es ih =>
    obtain ⟨he, hes⟩ := List.pairwise_cons.mp h
    rw [List.foldl_cons, ih hes]
    change (replace e.1 e.2 s).flatMap (entity es) = s.flatMap (entity (e :: es))
    rw [replace, List.flatMap_assoc]
    refine List.flatMap_congr fun c _ => ?_
    by_cases hc : c = e.1
    · have hkeep : ∀ d ∈ e.2.toList, entity es d = [d] := fun d hd =>
        entity_eq_singleton fun f hf hdf => he f hf (hdf ▸ hd)
      rw [if_pos hc, List.flatMap_congr hkeep, List.flatMap_singleton', entity, hc,
        List.lookup_cons_self]
      rfl
    · have hlookup : (e :: es).lookup c = es.lookup c := by
        rw [List.lookup_cons, beq_false_of_ne hc]
      rw [if_neg hc, List.flatMap_singleton, entity, entity, hlookup]

/-- The five replacements are one pass, since the ampersand is the first to be replaced. -/
theorem toList_escape (s : String) : (escape s).toList = s.toList.flatMap (entity entities) := by
  rw [escape, String.toList_ofList, foldl_replace (by decide)]

example : escape "'&lt;" = "&#39;&amp;lt;" := by decide

/-- An escaped text has the characters of entities, and those of the text that have no entity. -/
theorem mem_escape {s : String} (h : c ∈ (escape s).toList) :
    (∃ e ∈ entities, c ∈ e.2.toList) ∨ c ∈ s.toList ∧ ∀ e ∈ entities, c ≠ e.1 := by
  rw [toList_escape, List.mem_flatMap] at h
  obtain ⟨d, hd, hc⟩ := h
  rcases entity_cases entities d with ⟨e, he, -, heq⟩ | ⟨hne, heq⟩
  · exact .inl ⟨e, he, heq ▸ hc⟩
  · rw [heq, List.mem_singleton] at hc
    exact .inr ⟨hc ▸ hd, hc ▸ hne⟩

theorem plain_escape (s : String) : Plain (escape s) := by
  refine occurrences_eq_zero.mpr fun h => ?_
  rcases mem_escape h with h | ⟨-, h⟩
  · exact absurd h (by decide)
  · exact absurd rfl (h ('<', "&lt;") (by decide))

theorem occurrences_style (h : c = '<' ∨ c = 'N') : ∀ l ∈ style, occurrences c l = 0 := by
  simp only [style, List.forall_mem_cons, occurrences_append_eq_zero]
  refine ⟨occurrences_ofList ?_, ⟨occurrences_ofList ?_, occurrences_ofList ?_⟩,
    occurrences_ofList ?_, occurrences_ofList ?_, occurrences_ofList ?_, occurrences_ofList ?_,
    ⟨occurrences_ofList ?_, occurrences_ofList ?_⟩, occurrences_ofList ?_, occurrences_ofList ?_,
    List.forall_mem_nil _⟩
  all_goals
    rcases h with rfl | rfl
    all_goals decide

theorem decodeEntities_append (c : Char) (cs : List Char) :
    decodeEntities (entity entities c ++ cs) = c :: decodeEntities cs := by
  rcases entity_cases entities c with ⟨e, he, rfl, heq⟩ | ⟨hne, heq⟩
  · rw [heq]
    simp only [entities, List.mem_cons, List.not_mem_nil, or_false] at he
    rcases he with rfl | rfl | rfl | rfl | rfl <;> rfl
  · have hamp : c ≠ '&' := hne ('&', "&amp;") List.mem_cons_self
    rw [heq, List.singleton_append, decodeEntities]
    all_goals
      rintro _ rfl
      exact absurd rfl hamp

/-- Every text is read back from its escaped form. -/
theorem decodeEntities_escape (s : String) : decodeEntities (escape s).toList = s.toList := by
  rw [toList_escape]
  induction s.toList with
  | nil => rfl
  | cons c cs ih => rw [List.flatMap_cons, decodeEntities_append, ih]

end Html

end LoadReport.Report
