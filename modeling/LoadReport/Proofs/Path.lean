import LoadReport.Path
import Mathlib.Data.List.TakeWhile

/-! # The paths of the reports

A path is its segments joined by slashes, and the path of a report has the segments of the path of
the results but for the last one. The last ones are never the same; those of two reports are the
same only if no name is left of the results' name, and then neither is a name of a file.
-/

namespace LoadReport.Path

variable {p s t name ext stem : List Char} {ss : List (List Char)}

/-- A segment that names an entry of the directory before it. -/
structure IsName (s : List Char) : Prop where
  ne_nil : s ≠ []
  ne_dot : s ≠ ['.']
  ne_dots : s ≠ ['.', '.']

structure IsExtension (ext : List Char) : Prop where
  ne_nil : ext ≠ []
  no_slash : '/' ∉ ext

theorem notMem_of_mem_segments (h : s ∈ segments p) : '/' ∉ s := by
  induction p generalizing s with
  | nil =>
    obtain rfl := List.mem_singleton.mp h
    exact List.not_mem_nil
  | cons c p ih =>
    rw [segments, List.splitOn_cons_eq_if_modifyHead] at h
    split at h
    · rcases List.mem_cons.mp h with rfl | h
      · exact List.not_mem_nil
      · exact ih h
    · rename_i hc
      obtain ⟨t, ts, hts⟩ := List.exists_cons_of_ne_nil (List.splitOn_ne_nil '/' p)
      rw [hts, List.modifyHead_cons] at h
      rcases List.mem_cons.mp h with rfl | h
      · have ht : '/' ∉ t := ih (by rw [segments, hts]; exact List.mem_cons_self)
        rw [List.mem_cons, not_or]
        exact ⟨fun he => hc (by rw [he, beq_self_eq_true]), ht⟩
      · exact ih (by rw [segments, hts]; exact List.mem_cons_of_mem t h)

theorem join_segments (p : List Char) : join (segments p) = p := List.intercalate_splitOn '/'

theorem segments_join (h : ∀ s ∈ ss, '/' ∉ s) (hss : ss ≠ []) : segments (join ss) = ss :=
  List.splitOn_intercalate '/' h hss

/-- What is added to a path is added to its last segment. -/
theorem join_concat_append (ss : List (List Char)) (s t : List Char) :
    join (ss ++ [s]) ++ t = join (ss ++ [s ++ t]) := by
  induction ss with
  | nil => simp [join]
  | cons u us ih =>
    have hne : ∀ v : List Char, us ++ [v] ≠ [] := fun v => by simp
    simp only [join] at ih ⊢
    rw [List.cons_append, List.cons_append, List.intercalate_cons_of_ne_nil (hne _),
      List.intercalate_cons_of_ne_nil (hne _), List.append_assoc, ih]

theorem segments_join_concat (h : segments p = ss ++ [name]) (hs : '/' ∉ s) :
    segments (join (ss ++ [s])) = ss ++ [s] := by
  refine segments_join (fun u hu => ?_) (by simp)
  rcases List.mem_append.mp hu with hu | hu
  · exact notMem_of_mem_segments (by rw [h]; exact List.mem_append_left _ hu)
  · rwa [List.mem_singleton.mp hu]

theorem notMem_of_segments (h : segments p = ss ++ [s]) : '/' ∉ s :=
  notMem_of_mem_segments (by rw [h]; exact List.mem_append_right ss List.mem_cons_self)

theorem segments_append (h : segments p = ss ++ [s]) (ht : '/' ∉ t) :
    segments (p ++ t) = ss ++ [s ++ t] := by
  have hst : '/' ∉ s ++ t := by simp [notMem_of_segments h, ht]
  rw [← join_segments p, h, join_concat_append, segments_join_concat h hst]

theorem exists_of_segments (h : segments p = ss ++ [s ++ t]) :
    ∃ q, p = q ++ t ∧ segments q = ss ++ [s] := by
  have hs : '/' ∉ s := fun hs => notMem_of_segments h (List.mem_append_left t hs)
  refine ⟨join (ss ++ [s]), ?_, segments_join_concat h hs⟩
  rw [join_concat_append, ← h, join_segments]

theorem splitName?_of_segments (h : segments p = ss ++ [name]) (hname : IsName name) :
    splitName? p = some (ss, name) := by
  simp [splitName?, h, dropIdle, hname.ne_nil, hname.ne_dot, hname.ne_dots]

theorem splitName?_of_dots (h : segments p = ss ++ [['.', '.']]) : splitName? p = none := by
  simp [splitName?, h, dropIdle]

theorem splitExtension_append (stem : List Char) (hext : '.' ∉ ext) :
    splitExtension (stem ++ '.' :: ext) =
      if stem = [] then ('.' :: ext, none) else (stem, some ext) := by
  have hall : ∀ c ∈ ext.reverse, decide (c ≠ '.') = true := by
    intro c hc
    rw [List.mem_reverse] at hc
    exact decide_eq_true (ne_of_mem_of_not_mem hc hext)
  have hafter : ((stem ++ '.' :: ext).reverse.takeWhile (· ≠ '.')).reverse = ext := by
    rw [List.reverse_append, List.reverse_cons, List.append_assoc,
      List.takeWhile_append_of_pos hall]
    simp
  have hlength : (stem ++ '.' :: ext).length - ext.length - 1 = stem.length := by
    simp only [List.length_append, List.length_cons]
    omega
  simp only [splitExtension, hafter, hlength, List.take_left]
  split
  · rename_i h
    rw [h, List.nil_append]
  · rfl

theorem splitExtension_of_notMem (h : '.' ∉ name) : splitExtension name = (name, none) := by
  have hafter : (name.reverse.takeWhile (· ≠ '.')).reverse = name := by
    rw [List.takeWhile_eq_self_iff.mpr, List.reverse_reverse]
    intro c hc
    rw [List.mem_reverse] at hc
    exact decide_eq_true (ne_of_mem_of_not_mem hc h)
  simp only [splitExtension, hafter]
  rw [Nat.sub_self, List.take_zero, if_pos rfl]

theorem splitExtension_cases (name : List Char) :
    splitExtension name = (name, none) ∨
      ∃ stem ext, stem ≠ [] ∧ '.' ∉ ext ∧ name = stem ++ '.' :: ext := by
  by_cases hdot : '.' ∈ name
  · obtain ⟨ext, stem, hname, hext⟩ :=
      List.eq_append_cons_of_mem (List.mem_reverse.mpr hdot)
    obtain rfl : name = stem.reverse ++ '.' :: ext.reverse := by
      rw [← List.reverse_reverse name, hname]
      simp
    have hext : '.' ∉ ext.reverse := by rwa [List.mem_reverse]
    by_cases hstem : stem.reverse = []
    · left
      rw [splitExtension_append _ hext, if_pos hstem, hstem, List.nil_append]
    · right
      exact ⟨_, _, hstem, hext, rfl⟩
  · left
    exact splitExtension_of_notMem hdot

theorem of_splitExtension (h : (splitExtension name).2 = some ext) :
    (splitExtension name).1 ≠ [] ∧ '.' ∉ ext ∧ name = (splitExtension name).1 ++ '.' :: ext := by
  obtain hnone | ⟨stem, old, hstem, hold, rfl⟩ := splitExtension_cases name
  · rw [hnone] at h
    cases h
  · rw [splitExtension_append stem hold, if_neg hstem] at h ⊢
    obtain rfl : old = ext := Option.some.inj h
    exact ⟨hstem, hold, rfl⟩

/-- The last segment of the path of a report. -/
def reportName (name ext : List Char) : List Char :=
  if (splitExtension name).2 = some "json".toList then
    if (splitExtension name).1 = ['.'] then ['.', '.'] else (splitExtension name).1 ++ '.' :: ext
  else name ++ '.' :: ext

theorem extension?_of_segments (h : segments p = ss ++ [name]) (hname : IsName name) :
    extension? p = (splitExtension name).2 := by
  rw [extension?, splitName?_of_segments h hname]
  rfl

theorem isName_append (hstem : stem ≠ []) (h : stem = ['.'] → ext ≠ []) :
    IsName (stem ++ '.' :: ext) := by
  obtain ⟨c, cs, rfl⟩ := List.exists_cons_of_ne_nil hstem
  constructor
  · simp
  · simp
  · intro he
    obtain ⟨rfl, hcs⟩ := List.cons.inj he
    obtain ⟨rfl, -⟩ | ⟨_, rfl, hnil⟩ := List.append_eq_cons_iff.mp hcs
    · exact h rfl (List.cons.inj hcs).2
    · simp at hnil

theorem setExtension_concat (h : segments p = ss ++ [stem]) (hstem : stem ≠ []) (hext : ext ≠ []) :
    setExtension (p ++ ['.']) ext = if stem = ['.'] then p ++ ['.'] else p ++ '.' :: ext := by
  have hsegments : segments (p ++ ['.']) = ss ++ [stem ++ ['.']] := segments_append h (by decide)
  unfold setExtension
  rw [if_neg hext]
  split_ifs with hdot
  · subst hdot
    have hdots : segments (p ++ ['.']) = ss ++ [['.', '.']] := hsegments
    simp only [splitName?_of_dots hdots]
  · have hname : IsName (stem ++ ['.']) := isName_append hstem fun he => absurd he hdot
    simp only [splitName?_of_segments hsegments hname, splitExtension_append stem List.not_mem_nil,
      if_neg hstem]
    rw [← h, join_segments]

/-- The extension is cut off with its dot, except for a dot that would leave `..`. -/
theorem withExtension_append {old : List Char} (h : segments p = ss ++ [stem]) (hstem : stem ≠ [])
    (hdot : '.' ∉ old) (hslash : '/' ∉ old) (hold : old ≠ []) (hext : ext ≠ []) :
    withExtension (p ++ '.' :: old) ext =
      if stem = ['.'] then p ++ ['.'] else p ++ '.' :: ext := by
  have hsegments : segments (p ++ '.' :: old) = ss ++ [stem ++ '.' :: old] :=
    segments_append h (by simpa using hslash)
  have hcut : (p ++ '.' :: old).take ((p ++ '.' :: old).length - old.length) = p ++ ['.'] := by
    rw [List.append_cons p, List.length_append, Nat.add_sub_cancel, List.take_left]
  rw [withExtension, extension?_of_segments hsegments (isName_append hstem fun _ => hold),
    splitExtension_append stem hdot, if_neg hstem]
  simp only [hcut]
  exact setExtension_concat h hstem hext

theorem segments_output {input ext : String} (h : segments input.toList = ss ++ [name])
    (hname : IsName name) (hext : IsExtension ext.toList) :
    segments (output input ext).toList = ss ++ [reportName name ext.toList] := by
  have hdot : '/' ∉ '.' :: ext.toList := by simpa using hext.no_slash
  unfold output reportName
  rw [String.toList_ofList, extension?_of_segments h hname]
  split
  · rename_i hjson
    obtain ⟨hstem, hold, hjoin⟩ := of_splitExtension hjson
    rw [hjoin] at h
    obtain ⟨q, hq, hsegments⟩ := exists_of_segments h
    rw [hq, withExtension_append hsegments hstem hold (by decide) (by decide) hext.ne_nil]
    split
    · rename_i hdots
      rw [segments_append hsegments (by decide), hdots]
      rfl
    · exact segments_append hsegments hdot
  · exact segments_append h hdot

example : output "run/results.json" "csv" = "run/results.csv" := by decide +kernel

/-- The extensions of all reports are put on one base, if there is one. -/
theorem reportName_cases (name : List Char) :
    (∃ base, (name = base ++ '.' :: "json".toList ∨ name = base) ∧
        ∀ ext, reportName name ext = base ++ '.' :: ext) ∨
      name = "..json".toList ∧ ∀ ext, reportName name ext = ['.', '.'] := by
  unfold reportName
  split_ifs with hjson hdot
  · right
    obtain ⟨-, -, hname⟩ := of_splitExtension hjson
    rw [hdot] at hname
    exact ⟨hname, fun _ => rfl⟩
  · left
    obtain ⟨-, -, hname⟩ := of_splitExtension hjson
    exact ⟨_, .inl hname, fun _ => rfl⟩
  · left
    exact ⟨name, .inr rfl, fun _ => rfl⟩

example : output "run/..json" "csv" = "run/.." := by decide +kernel

theorem reportName_ne (h : ext ≠ "json".toList) : reportName name ext ≠ name := by
  obtain ⟨base, rfl | rfl, hname⟩ | ⟨rfl, hname⟩ := reportName_cases name
  · rw [hname]
    intro he
    exact h (List.cons.inj (List.append_cancel_left he)).2
  · rw [hname]
    simp
  · rw [hname]
    decide

theorem eq_dots_of_reportName_eq {ext' : List Char} (h : ext ≠ ext')
    (he : reportName name ext = reportName name ext') : reportName name ext = ['.', '.'] := by
  obtain ⟨base, -, hname⟩ | ⟨-, hname⟩ := reportName_cases name
  · rw [hname, hname] at he
    exact absurd (List.cons.inj (List.append_cancel_left he)).2 h
  · exact hname ext

end LoadReport.Path
