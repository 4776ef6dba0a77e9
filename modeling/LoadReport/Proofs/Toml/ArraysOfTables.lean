import LoadReport.Toml.Document
import Mathlib.Data.List.Basic
import Mathlib.Data.Option.Basic

/-! # Arrays of tables

A header makes an array of tables with one table in it, and whatever comes later adds to the array
or changes its last table. Values after an equals sign are no such arrays. So an array of tables in
a document is never empty.
-/

namespace LoadReport.Toml

variable {v : Value} {es es' : Entries} {frames : List Frame} {p : Progress} {d d' : Document}
  {path : List String} {key : String} {word r s : List Char}

/-- Not an array of no tables. -/
def Value.Filled : Value → Prop
  | .tables ts => ts ≠ []
  | _ => True

theorem Value.filled_array (items : List Value) : (array items).Filled := trivial

theorem Value.filled_table (origin : Origin) (es : Entries) : (table origin es).Filled := trivial

/-! ## Values after an equals sign -/

theorem filled_bounded? {n : Int} (h : bounded? n = some v) : v.Filled := by
  rw [bounded?, Option.ite_none_right_eq_some] at h
  obtain ⟨-, h⟩ := h
  cases h
  trivial

theorem filled_integer? (h : integer? word = some v) : v.Filled := by
  unfold integer? at h
  split at h
  all_goals
    rw [Option.ite_none_right_eq_some] at h
    exact filled_bounded? h.2

theorem filled_float? (h : float? word = some v) : v.Filled := by
  unfold float? at h
  dsimp only at h
  split at h
  · cases h
    trivial
  · obtain ⟨-, -, h⟩ := Option.bind_eq_some_iff.mp h
    obtain ⟨-, -, h⟩ := Option.bind_eq_some_iff.mp h
    obtain ⟨-, -, h⟩ := Option.bind_eq_some_iff.mp h
    obtain ⟨-, -, h⟩ := Option.bind_eq_some_iff.mp h
    obtain ⟨-, -, h⟩ := Option.bind_eq_some_iff.mp h
    cases h
    trivial

theorem filled_dateTime? (h : dateTime? word = some v) : v.Filled := by
  unfold dateTime? at h
  dsimp only at h
  rw [Option.ite_none_right_eq_some] at h
  obtain ⟨-, h⟩ := h
  cases h
  trivial

theorem filled_word? (h : word? word = some v) : v.Filled := by
  unfold word? at h
  split_ifs at h
  · cases h
    trivial
  · cases h
    trivial
  · simp only [Option.orElse_eq_orElse, Option.orElse_eq_or, Option.or_eq_some_iff] at h
    rcases h with h | ⟨-, h | ⟨-, h⟩⟩
    · exact filled_integer? h
    · exact filled_float? h
    · exact filled_dateTime? h

theorem filled_scalar? (h : Value.scalar? s = some (v, r)) : v.Filled := by
  unfold Value.scalar? at h
  split at h
  all_goals
    obtain ⟨x, hx, heq⟩ := Option.map_eq_some_iff.mp h
    cases heq
  · trivial
  · trivial
  · trivial
  · trivial
  · exact filled_word? hx

def Progress.Filled : Progress → Prop
  | .done v _ => v.Filled
  | .next _ _ => True

theorem filled_settle? (hv : v.Filled) (h : settle? frames v r = some p) : p.Filled := by
  induction frames generalizing v r with
  | nil =>
    cases h
    exact hv
  | cons frame frames ih =>
    cases frame with
    | array items =>
      rw [settle?] at h
      obtain ⟨s, -, h⟩ := Option.bind_eq_some_iff.mp h
      split at h
      · obtain ⟨s, -, h⟩ := Option.bind_eq_some_iff.mp h
        split at h
        · exact ih (Value.filled_array _) h
        · cases h
          trivial
      · exact ih (Value.filled_array _) h
      · cases h
    | inline entries path key =>
      rw [settle?] at h
      obtain ⟨s, -, h⟩ := Option.bind_eq_some_iff.mp h
      split at h
      · obtain ⟨s, -, h⟩ := Option.bind_eq_some_iff.mp h
        cases h
        trivial
      · exact ih (Value.filled_table _ _) h
      · cases h

theorem filled_begin? (h : begin? frames s = some p) : p.Filled := by
  unfold begin? at h
  split at h
  · obtain ⟨-, -, h⟩ := Option.bind_eq_some_iff.mp h
    obtain ⟨s, -, h⟩ := Option.bind_eq_some_iff.mp h
    split at h
    · exact filled_settle? (Value.filled_array _) h
    · cases h
      trivial
  · obtain ⟨-, -, h⟩ := Option.bind_eq_some_iff.mp h
    split at h
    · exact filled_settle? (Value.filled_table _ _) h
    · obtain ⟨x, -, h⟩ := Option.bind_eq_some_iff.mp h
      cases h
      trivial
  · obtain ⟨⟨v, r⟩, hv, h⟩ := Option.bind_eq_some_iff.mp h
    exact filled_settle? (filled_scalar? hv) h

theorem filled_value? (h : value? s = some (v, r)) : v.Filled := by
  unfold value? at h
  generalize [] = frames, s.length + 1 = n at h
  induction n generalizing frames s with
  | zero => cases h
  | succ n ih =>
    obtain ⟨p, hp, h⟩ := Option.bind_eq_some_iff.mp h
    split at h
    · cases h
      exact filled_begin? hp
    · exact ih _ h

/-! ## Documents -/

def Entries.Filled (es : Entries) : Prop := ∀ e ∈ es, e.2.Filled

namespace Entries

theorem Filled.lookup (h : es.Filled) (hv : es.lookup key = some v) : v.Filled := by
  obtain ⟨front, rest, rfl, -⟩ := List.lookup_eq_some_iff.mp hv
  exact h (key, v) List.mem_append_cons_self

theorem Filled.concat (h : es.Filled) (hv : v.Filled) : Filled (es ++ [(key, v)]) :=
  List.forall_mem_append.mpr ⟨h, List.forall_mem_singleton.mpr hv⟩

theorem Filled.replace (h : es.Filled) (hv : v.Filled) : Filled (es.replace key v) := by
  refine List.forall_mem_map.mpr fun ⟨k, w⟩ he => ?_
  dsimp only
  split_ifs
  · exact hv
  · exact h _ he

theorem filled_concat (ts : List Entries) (t : Entries) : (Value.tables (ts ++ [t])).Filled :=
  List.concat_ne_nil t ts

/-- On the way along a path only tables are added, and an array of tables keeps a last one. -/
theorem Filled.alter {dotted : Bool} {f : Origin → Entries → Option Entries} {origin : Origin}
    (h : es.Filled) (hf : ∀ es', f origin es = some es' → Filled es')
    (heq : es.alter dotted f path origin = some es') : es'.Filled := by
  cases path with
  | nil => exact hf es' heq
  | cons key path =>
    rw [Entries.alter] at heq
    split at heq
    · obtain ⟨sub, -, heq⟩ := Option.bind_eq_some_iff.mp heq
      cases heq
      exact h.concat (Value.filled_table _ _)
    · split at heq
      · cases heq
      · obtain ⟨sub, -, heq⟩ := Option.bind_eq_some_iff.mp heq
        cases heq
        exact h.replace (Value.filled_table _ _)
    · split at heq
      · cases heq
      · obtain ⟨last, -, heq⟩ := Option.bind_eq_some_iff.mp heq
        cases heq
        exact h.replace (filled_concat _ _)
    · cases heq

theorem Filled.insert (h : es.Filled) (hv : v.Filled) (heq : es.insert path key v = some es') :
    es'.Filled := by
  refine h.alter (fun es' hf => ?_) heq
  split at hf
  · cases hf
  · cases hf
    exact h.concat hv

theorem Filled.openTable (h : es.Filled) (heq : es.openTable path key = some es') :
    es'.Filled := by
  refine h.alter (fun es' hf => ?_) heq
  split at hf
  · cases hf
    exact h.concat (Value.filled_table _ _)
  · cases hf
    exact h.replace (Value.filled_table _ _)
  · cases hf

theorem Filled.openItem (h : es.Filled) (heq : es.openItem path key = some es') : es'.Filled := by
  refine h.alter (fun es' hf => ?_) heq
  split at hf
  · cases hf
    exact h.concat (filled_concat [] [])
  · cases hf
    exact h.replace (filled_concat _ _)
  · cases hf

end Entries

namespace Document

theorem filled_insert (h : d.entries.Filled) (hv : v.Filled)
    (heq : d.insert path key v = some d') : d'.entries.Filled := by
  obtain ⟨es, hes, heq⟩ := Option.bind_eq_some_iff.mp heq
  cases heq
  refine h.alter (fun es' hf => ?_) hes
  exact h.insert hv hf

theorem filled_line? (h : d.entries.Filled) (heq : d.line? s = some (d', r)) :
    d'.entries.Filled := by
  unfold line? at heq
  split at heq
  · obtain ⟨⟨path, key, r⟩, -, heq⟩ := Option.bind_eq_some_iff.mp heq
    dsimp only at heq
    split at heq
    · obtain ⟨es, hes, heq⟩ := Option.bind_eq_some_iff.mp heq
      obtain ⟨r, -, heq⟩ := Option.bind_eq_some_iff.mp heq
      cases heq
      exact h.openItem hes
    · cases heq
  · obtain ⟨⟨path, key, r⟩, -, heq⟩ := Option.bind_eq_some_iff.mp heq
    dsimp only at heq
    split at heq
    · obtain ⟨es, hes, heq⟩ := Option.bind_eq_some_iff.mp heq
      obtain ⟨r, -, heq⟩ := Option.bind_eq_some_iff.mp heq
      cases heq
      exact h.openTable hes
    · cases heq
  · obtain ⟨⟨path, key, r⟩, -, heq⟩ := Option.bind_eq_some_iff.mp heq
    obtain ⟨⟨v, r⟩, hv, heq⟩ := Option.bind_eq_some_iff.mp heq
    obtain ⟨d₁, hd₁, heq⟩ := Option.bind_eq_some_iff.mp heq
    obtain ⟨r, -, heq⟩ := Option.bind_eq_some_iff.mp heq
    cases heq
    exact filled_insert h (filled_value? hv) hd₁

theorem filled_lines? {n : Nat} (h : d.entries.Filled) (heq : lines? n d s = some d') :
    d'.entries.Filled := by
  induction n generalizing d s with
  | zero => cases heq
  | succ n ih =>
    rw [lines?] at heq
    split at heq
    · cases heq
      exact h
    · split at heq
      · exact ih h heq
      · obtain ⟨⟨d₁, r⟩, hline, heq⟩ := Option.bind_eq_some_iff.mp heq
        exact ih (filled_line? h hline) heq

/-- No array of tables in a document is empty. -/
theorem filled_parse? (heq : parse? s = some es) : es.Filled := by
  obtain ⟨d, hd, heq⟩ := Option.bind_eq_some_iff.mp heq
  cases heq
  have hempty : Entries.Filled [] := List.forall_mem_nil _
  exact filled_lines? hempty hd

end Document

end LoadReport.Toml
