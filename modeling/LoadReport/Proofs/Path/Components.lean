import LoadReport.Proofs.Path
import Mathlib.Data.List.Induction

/-! # The components of paths

A path is read as its components. Empty segments and segments `.` are none, except for the first
one, which tells the root and the working directory. Such segments may follow the file name; they do
not hide it.
-/

namespace LoadReport.Path

variable {p s name : List Char} {ss before idle : List (List Char)}

inductive Component where
  | root
  | current
  | parent
  | normal (name : List Char)
  deriving DecidableEq, Repr

variable {cs : List Component}

/-- A segment that stands for the directory before it. -/
def IsIdle (s : List Char) : Prop := s = [] ∨ s = ['.']

instance (s : List Char) : Decidable (IsIdle s) := inferInstanceAs (Decidable (s = [] ∨ s = ['.']))

def component? (s : List Char) : Option Component :=
  if IsIdle s then none else if s = ['.', '.'] then some .parent else some (.normal s)

def firstComponent? (s : List Char) : Option Component :=
  if s = [] then some .root else if s = ['.'] then some .current else component? s

def ofSegments : List (List Char) → List Component
  | [] => []
  | s :: ss => (firstComponent? s).toList ++ ss.filterMap component?

def components (p : List Char) : List Component := if p = [] then [] else ofSegments (segments p)

example : components "./a//b/../c.json/.".toList =
    [.current, .normal ['a'], .normal ['b'], .parent, .normal "c.json".toList] := by decide +kernel

theorem IsName.not_isIdle (h : IsName s) : ¬ IsIdle s := by
  rintro (hs | hs)
  · exact h.ne_nil hs
  · exact h.ne_dot hs

theorem IsIdle.notMem (h : IsIdle s) : '/' ∉ s := by
  rcases h with rfl | rfl <;> decide

theorem component?_of_isName (h : IsName s) : component? s = some (.normal s) := by
  rw [component?, if_neg h.not_isIdle, if_neg h.ne_dots]

theorem component?_of_isIdle (h : IsIdle s) : component? s = none := if_pos h

theorem component?_injective {t : List Char} (hs : ¬ IsIdle s)
    (h : component? s = component? t) : s = t := by
  unfold component? at h
  rw [if_neg hs] at h
  split_ifs at h with hdots hidle hdots' hidle hdots'
  · rw [hdots, hdots']
  · cases h
  · cases h
  · exact Component.normal.inj (Option.some.inj h)

theorem isName_of_component? (h : component? s = some (.normal name)) : IsName s ∧ s = name := by
  unfold component? at h
  split_ifs at h with hidle hdots
  · cases h
  · exact ⟨⟨fun hs => hidle (.inl hs), fun hs => hidle (.inr hs), hdots⟩,
      Component.normal.inj (Option.some.inj h)⟩

theorem exists_component? (h : ¬ IsIdle s) : ∃ c, component? s = some c := by
  unfold component?
  rw [if_neg h]
  split_ifs
  · exact ⟨_, rfl⟩
  · exact ⟨_, rfl⟩

theorem firstComponent?_eq (h : ¬ IsIdle s) : firstComponent? s = component? s := by
  rw [firstComponent?, if_neg fun hs => h (.inl hs), if_neg fun hs => h (.inr hs)]

theorem ofSegments_append (h : ¬ IsIdle s) (before ss : List (List Char)) :
    ofSegments (before ++ s :: ss) =
      ofSegments before ++ (component? s).toList ++ ss.filterMap component? := by
  cases before with
  | nil =>
    change (firstComponent? s).toList ++ ss.filterMap component? = _
    rw [firstComponent?_eq h]
    rfl
  | cons t before =>
    rw [List.cons_append, ofSegments, ofSegments, List.filterMap_append, List.filterMap_cons]
    cases component? s <;> simp

theorem ofSegments_concat_idle (hss : ss ≠ []) (hs : IsIdle s) :
    ofSegments (ss ++ [s]) = ofSegments ss := by
  obtain ⟨t, ts, rfl⟩ := List.exists_cons_of_ne_nil hss
  rw [List.cons_append, ofSegments, ofSegments, List.filterMap_append, List.filterMap_cons,
    component?_of_isIdle hs, List.filterMap_nil, List.append_nil]

/-- A last component that is a name is the last segment that is not idle. -/
theorem exists_of_ofSegments (h : ofSegments ss = cs ++ [.normal name]) :
    ∃ before idle, ss = before ++ name :: idle ∧ IsName name ∧ (∀ s ∈ idle, IsIdle s) ∧
      ofSegments before = cs := by
  induction ss using List.reverseRecOn with
  | nil => simp [ofSegments] at h
  | append_singleton ss s ih =>
    by_cases hs : IsIdle s
    · rcases eq_or_ne ss [] with rfl | hss
      · rcases hs with rfl | rfl
        · have hroot : [] ++ [Component.root] = cs ++ [.normal name] := h
          cases (List.append_inj' hroot rfl).2
        · have hcurrent : [] ++ [Component.current] = cs ++ [.normal name] := h
          cases (List.append_inj' hcurrent rfl).2
      · rw [ofSegments_concat_idle hss hs] at h
        obtain ⟨before, idle, rfl, hname, hidle, hbefore⟩ := ih h
        refine ⟨before, idle ++ [s], by simp, hname, ?_, hbefore⟩
        intro t ht
        rcases List.mem_append.mp ht with ht | ht
        · exact hidle t ht
        · rwa [List.mem_singleton.mp ht]
    · rw [ofSegments_append hs, List.filterMap_nil, List.append_nil] at h
      obtain ⟨c, hc⟩ := exists_component? hs
      rw [hc] at h
      obtain ⟨hbefore, hlast⟩ := List.append_inj' h rfl
      obtain rfl : c = .normal name := List.singleton_inj.mp hlast
      obtain ⟨hname, rfl⟩ := isName_of_component? hc
      exact ⟨ss, [], rfl, hname, List.forall_mem_nil _, hbefore⟩

theorem mem_segments_middle (h : segments p = before ++ s :: ss) : s ∈ segments p := by
  rw [h]
  exact List.mem_append_right before List.mem_cons_self

theorem notMem_of_segments_middle (h : segments p = before ++ s :: ss) : '/' ∉ s :=
  notMem_of_mem_segments (mem_segments_middle h)

theorem components_of_segments (h : segments p = before ++ s :: ss) (hs : ¬ IsIdle s) :
    components p = ofSegments before ++ (component? s).toList ++ ss.filterMap component? := by
  have hp : p ≠ [] := by
    rintro rfl
    exact hs (.inl (List.mem_singleton.mp (mem_segments_middle h)))
  rw [components, if_neg hp, h, ofSegments_append hs]

/-- The file name in the last components is found in the segments. -/
theorem exists_of_components (h : components p = cs ++ [.normal name]) :
    ∃ before idle, segments p = before ++ name :: idle ∧ IsName name ∧ (∀ s ∈ idle, IsIdle s) ∧
      ofSegments before = cs := by
  unfold components at h
  split_ifs at h with hp
  · simp at h
  · exact exists_of_ofSegments h

theorem dropIdle_append (h : ∀ s ∈ idle, IsIdle s) (hname : ¬ IsIdle name)
    (before : List (List Char)) : dropIdle (idle ++ name :: before) = name :: before := by
  induction idle with
  | nil =>
    have hkeep : ¬ (name = [] || (name = ['.'] && before ≠ [])) = true := by
      simp only [Bool.or_eq_true, Bool.and_eq_true, decide_eq_true_eq]
      rintro (hs | ⟨hs, -⟩)
      · exact hname (.inl hs)
      · exact hname (.inr hs)
    rw [List.nil_append, dropIdle, if_neg hkeep]
  | cons s idle ih =>
    obtain ⟨hs, hidle⟩ := List.forall_mem_cons.mp h
    have hdrop : (s = [] || (s = ['.'] && idle ++ name :: before ≠ [])) = true := by
      rcases hs with rfl | rfl <;> simp
    rw [List.cons_append, dropIdle, if_pos hdrop, ih hidle]

theorem splitName?_of_idle (h : segments p = before ++ name :: idle) (hname : IsName name)
    (hidle : ∀ s ∈ idle, IsIdle s) : splitName? p = some (before, name) := by
  have hreverse : (segments p).reverse = idle.reverse ++ name :: before.reverse := by
    rw [h]
    simp
  have hdrop : dropIdle (segments p).reverse = name :: before.reverse := by
    rw [hreverse]
    exact dropIdle_append (fun s hs => hidle s (List.mem_reverse.mp hs)) hname.not_isIdle _
  unfold splitName?
  rw [hdrop]
  simp [hname.ne_dot, hname.ne_dots]

/-- Nothing follows the file name if it ends the path. -/
theorem isSuffix_iff (h : segments p = before ++ name :: idle) (hname : IsName name)
    (hidle : ∀ s ∈ idle, IsIdle s) : name <:+ p ↔ idle = [] := by
  constructor
  · rintro ⟨q, rfl⟩
    have hslash := notMem_of_segments_middle h
    obtain ⟨ss, s, hq⟩ := (List.eq_nil_or_concat (segments q)).resolve_left
      (List.splitOn_ne_nil '/' q)
    rw [List.concat_eq_append] at hq
    rw [segments_append hq hslash] at h
    rcases List.eq_nil_or_concat idle with rfl | ⟨idle, t, rfl⟩
    · rfl
    · rw [List.concat_eq_append, ← List.cons_append, ← List.append_assoc] at h
      obtain ⟨-, hlast⟩ := List.append_inj' h rfl
      have ht : IsIdle (s ++ name) := by
        rw [List.singleton_inj.mp hlast]
        exact hidle t (by simp)
      rcases ht with ht | ht
      · exact absurd (List.append_eq_nil_iff.mp ht).2 hname.ne_nil
      · rcases List.append_eq_singleton_iff.mp ht with ⟨-, hdot⟩ | ⟨-, hnil⟩
        · exact absurd hdot hname.ne_dot
        · exact absurd hnil hname.ne_nil
  · rintro rfl
    refine ⟨join (before ++ [[]]), ?_⟩
    rw [join_concat_append, List.nil_append, ← h, join_segments]

end LoadReport.Path
