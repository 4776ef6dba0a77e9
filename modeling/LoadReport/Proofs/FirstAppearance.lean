import Mathlib.Data.List.Induction
import Mathlib.Data.List.Nodup
import Mathlib.Data.Nat.Basic

/-! # Order of first appearance

A list without its repetitions keeps the order in which its elements first appear. The place of an
element in that order is the number of elements that appear before it.
-/

namespace LoadReport

variable {α : Type*} [DecidableEq α]

theorem eraseDups_concat (l : List α) (a : α) :
    (l ++ [a]).eraseDups = if a ∈ l then l.eraseDups else l.eraseDups ++ [a] := by
  rw [List.eraseDups_append]
  by_cases h : a ∈ l <;> simp [List.removeAll, h, List.eraseDups_cons]

theorem nodup_eraseDups (l : List α) : l.eraseDups.Nodup := by
  induction l using List.reverseRecOn with
  | nil => simp
  | append_singleton l a ih =>
    rw [eraseDups_concat]
    split_ifs with h
    · exact ih
    · rw [← List.concat_eq_append]
      exact ih.concat (by simpa using h)

theorem eraseDups_filter (p : α → Bool) (l : List α) :
    (l.filter p).eraseDups = l.eraseDups.filter p := by
  induction l using List.reverseRecOn with
  | nil => rfl
  | append_singleton l a ih =>
    rw [List.filter_append, eraseDups_concat]
    by_cases hp : p a
    · rw [List.filter_cons_of_pos hp, List.filter_nil, eraseDups_concat, ih]
      by_cases h : a ∈ l <;> simp [h, hp]
    · rw [List.filter_cons_of_neg hp, List.filter_nil, List.append_nil, ih]
      by_cases h : a ∈ l <;> simp [h, hp]

/-- In a list that a measure puts in strict order, the place of an element is the number of elements
of smaller measure. -/
theorem idxOf_eq_countP {l : List α} {f : α → ℕ} (h : l.Pairwise (f · < f ·)) {k : α}
    (hk : k ∈ l) : l.idxOf k = l.countP (fun a => f a < f k) := by
  induction l with
  | nil => simp at hk
  | cons a l ih =>
    obtain ⟨ha, hl⟩ := List.pairwise_cons.mp h
    by_cases he : a = k
    · subst he
      have hz : l.countP (fun b => f b < f a) = 0 :=
        List.countP_eq_zero.mpr fun b hb => by simpa using Nat.le_of_lt (ha b hb)
      simp [hz]
    · have hk' : k ∈ l := (List.mem_cons.mp hk).resolve_left fun hc => he hc.symm
      rw [List.idxOf_cons_ne _ he, ih hl hk', List.countP_cons_of_pos (by simpa using ha k hk')]

theorem pairwise_idxOf {l : List α} (h : l.Nodup) : l.Pairwise (l.idxOf · < l.idxOf ·) := by
  induction l using List.reverseRecOn with
  | nil => exact .nil
  | append_singleton l a ih =>
    obtain ⟨ha, hl⟩ := (List.nodup_concat l a).mp (List.concat_eq_append ▸ h)
    refine List.pairwise_append.mpr ⟨?_, List.pairwise_singleton .., ?_⟩
    · exact (ih hl).imp_of_mem fun {b c} hb hc hlt => by
        simpa [List.idxOf_append, hb, hc] using hlt
    · intro b hb c hc
      obtain rfl := List.mem_singleton.mp hc
      simpa [List.idxOf_append, hb, ha] using List.idxOf_lt_length_of_mem hb

theorem map_idxOf {l : List α} (h : l.Nodup) : l.map l.idxOf = List.range l.length := by
  induction l using List.reverseRecOn with
  | nil => rfl
  | append_singleton l a ih =>
    obtain ⟨ha, hl⟩ := (List.nodup_concat l a).mp (List.concat_eq_append ▸ h)
    have he : l.map (l ++ [a]).idxOf = l.map l.idxOf :=
      List.map_congr_left fun b hb => by simp [List.idxOf_append, hb]
    rw [List.map_append, he, ih hl]
    simp [List.idxOf_append, ha, List.range_succ]

variable {β : Type*} {f : β → Option α} {bs : List β} {a : α}

theorem findIdx_lt_length (h : a ∈ bs.filterMap f) : bs.findIdx (f · = some a) < bs.length := by
  obtain ⟨b, hb, ha⟩ := List.mem_filterMap.mp h
  exact List.findIdx_lt_length_of_exists ⟨b, hb, decide_eq_true ha⟩

theorem findIdx_concat_of_mem (h : a ∈ bs.filterMap f) (b : β) :
    (bs ++ [b]).findIdx (f · = some a) = bs.findIdx (f · = some a) := by
  rw [List.findIdx_append, if_pos (findIdx_lt_length h)]

theorem findIdx_concat_of_not_mem (h : a ∉ bs.filterMap f) {b : β} (hb : f b = some a) :
    (bs ++ [b]).findIdx (f · = some a) = bs.length := by
  have hnone : ∀ c ∈ bs, decide (f c = some a) = false := fun c hc =>
    decide_eq_false fun ha => h (List.mem_filterMap.mpr ⟨c, hc, ha⟩)
  rw [List.findIdx_append, List.findIdx_eq_length_of_false hnone, if_neg (Nat.lt_irrefl _)]
  simp [hb]

/-- What some items stand for appears in the order of the first items that stand for it. -/
theorem pairwise_findIdx (f : β → Option α) (bs : List β) :
    (bs.filterMap f).eraseDups.Pairwise fun a b =>
      bs.findIdx (f · = some a) < bs.findIdx (f · = some b) := by
  induction bs using List.reverseRecOn with
  | nil => exact .nil
  | append_singleton bs b ih =>
    have hold : (bs.filterMap f).eraseDups.Pairwise fun a a' =>
        (bs ++ [b]).findIdx (f · = some a) < (bs ++ [b]).findIdx (f · = some a') :=
      ih.imp_of_mem fun {a a'} ha ha' hlt => by
        rwa [findIdx_concat_of_mem (List.mem_eraseDups.mp ha),
          findIdx_concat_of_mem (List.mem_eraseDups.mp ha')]
    cases hb : f b with
    | none =>
      rwa [List.filterMap_append, List.filterMap_cons_none hb, List.filterMap_nil, List.append_nil]
    | some c =>
      rw [List.filterMap_append, List.filterMap_cons_some hb, List.filterMap_nil, eraseDups_concat]
      split_ifs with hmem
      · exact hold
      · refine List.pairwise_append.mpr ⟨hold, List.pairwise_singleton .., fun a ha a' ha' => ?_⟩
        obtain rfl := List.mem_singleton.mp ha'
        have ha := List.mem_eraseDups.mp ha
        rw [findIdx_concat_of_mem ha, findIdx_concat_of_not_mem hmem hb]
        exact findIdx_lt_length ha

theorem rel_of_idxOf_lt {r : α → α → Prop} {l : List α} (h : l.Pairwise r) {a b : α}
    (hb : b ∈ l) (hlt : l.idxOf a < l.idxOf b) : r a b := by
  have hb' := List.idxOf_lt_length_of_mem hb
  have hr := List.pairwise_iff_getElem.mp h _ _ (Nat.lt_trans hlt hb') hb' hlt
  rwa [List.getElem_idxOf, List.getElem_idxOf] at hr

end LoadReport
