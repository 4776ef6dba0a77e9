import LoadReport.Proofs.Path.Components

/-! # Where the reports are written

A `json` extension is replaced by cutting it off the end of the path, even if more follows the file
name there. What is left ends in the stem, a dot and perhaps some of the extension, or in the file
name and some of what follows it; either way its stem is that of the results. Only a name `..json`
at the very end leaves no stem, and the paths of all reports are then the directory above.
-/

namespace LoadReport.Path

variable {p s t name stem old ext : List Char} {ss ts before idle : List (List Char)}
  {cs : List Component} {input : String}

/-- The text of segments that follow others. -/
def trail (ss : List (List Char)) : List Char := ss.flatMap fun s => '/' :: s

theorem join_cons (s : List Char) (ss : List (List Char)) : join (s :: ss) = s ++ trail ss := by
  induction ss generalizing s with
  | nil => simp [join, trail]
  | cons t ss ih =>
    have hrest : ['/'].intercalate (t :: ss) = t ++ trail ss := ih t
    rw [join, List.intercalate_cons_cons, hrest]
    simp [trail]

theorem join_append (hss : ss ≠ []) (ts : List (List Char)) :
    join (ss ++ ts) = join ss ++ trail ts := by
  obtain ⟨s, ss, rfl⟩ := List.exists_cons_of_ne_nil hss
  rw [List.cons_append, join_cons, join_cons, trail, List.flatMap_append, List.append_assoc]
  rfl

theorem join_middle (before : List (List Char)) (s t : List Char) (ss : List (List Char)) :
    join (before ++ (s ++ t) :: ss) = join (before ++ [s]) ++ (t ++ trail ss) := by
  rw [List.append_cons, join_append (by simp), ← join_concat_append, List.append_assoc]

theorem segments_join_middle (h : segments p = before ++ s :: ss) (ht : '/' ∉ t)
    (hts : ∀ u ∈ ts, '/' ∉ u) : segments (join (before ++ t :: ts)) = before ++ t :: ts := by
  refine segments_join (fun u hu => ?_)
    (List.append_ne_nil_of_right_ne_nil before (List.cons_ne_nil t ts))
  rcases List.mem_append.mp hu with hu | hu
  · exact notMem_of_mem_segments (by rw [h]; exact List.mem_append_left _ hu)
  · rcases List.mem_cons.mp hu with rfl | hu
    · exact ht
    · exact hts u hu

/-- Cut anywhere, idle segments are idle segments. -/
theorem exists_of_prefix_trail {rest : List Char} (h : ∀ s ∈ idle, IsIdle s)
    (hrest : rest <+: trail idle) :
    ∃ idle', (∀ s ∈ idle', IsIdle s) ∧ rest = trail idle' := by
  induction idle generalizing rest with
  | nil =>
    obtain rfl := List.prefix_nil.mp hrest
    exact ⟨[], List.forall_mem_nil _, rfl⟩
  | cons s idle ih =>
    obtain ⟨hs, hidle⟩ := List.forall_mem_cons.mp h
    rw [trail, List.flatMap_cons, List.cons_append] at hrest
    rcases List.prefix_cons_iff.mp hrest with rfl | ⟨r, rfl, hr⟩
    · exact ⟨[], List.forall_mem_nil _, rfl⟩
    rcases hs with rfl | rfl
    · obtain ⟨idle', hidle', rfl⟩ := ih hidle hr
      exact ⟨[] :: idle', List.forall_mem_cons.mpr ⟨.inl rfl, hidle'⟩, rfl⟩
    · rw [List.cons_append, List.nil_append] at hr
      rcases List.prefix_cons_iff.mp hr with rfl | ⟨r', rfl, hr'⟩
      · exact ⟨[[]], List.forall_mem_singleton.mpr (.inl rfl), rfl⟩
      · obtain ⟨idle', hidle', rfl⟩ := ih hidle hr'
        exact ⟨['.'] :: idle', List.forall_mem_cons.mpr ⟨.inr rfl, hidle'⟩, rfl⟩

/-- Cutting off as much as the extension has leaves a name with the same stem. -/
theorem exists_of_cut (h : segments p = before ++ (stem ++ '.' :: old) :: idle)
    (hidle : ∀ s ∈ idle, IsIdle s) (hne : idle ≠ []) (hdot : '.' ∉ old) (hold : old ≠ []) :
    ∃ old' idle', segments (p.take (p.length - old.length)) =
        before ++ (stem ++ '.' :: old') :: idle' ∧
      (∀ s ∈ idle', IsIdle s) ∧ '.' ∉ old' ∧ old' ≠ [] := by
  rw [List.append_cons stem] at h
  have htext : p = join (before ++ [stem ++ ['.']]) ++ (old ++ trail idle) := by
    rw [← join_segments p, h, join_middle]
  have hlength : p.length - old.length =
      (join (before ++ [stem ++ ['.']])).length + (trail idle).length := by
    rw [htext, List.length_append, List.length_append]
    omega
  obtain ⟨idle', hidle', hrest⟩ := exists_of_prefix_trail hidle
    (List.take_prefix ((trail idle).length - old.length) (trail idle))
  have hcut : p.take (p.length - old.length) =
      join (before ++ (stem ++ ['.'] ++ old.take (trail idle).length) :: idle') := by
    rw [hlength, htext, List.take_length_add_append, List.take_append, hrest,
      join_middle before (stem ++ ['.'])]
  refine ⟨old.take (trail idle).length, idle', ?_, hidle', ?_, ?_⟩
  · rw [hcut, List.append_cons stem '.' (old.take _)]
    refine segments_join_middle h (fun hmem => ?_) fun s hs => (hidle' s hs).notMem
    have hsublist := (List.take_sublist (trail idle).length old).append_left (stem ++ ['.'])
    exact notMem_of_segments_middle h (hsublist.subset hmem)
  · exact fun hmem => hdot (List.mem_of_mem_take hmem)
  · obtain ⟨t, ts, rfl⟩ := List.exists_cons_of_ne_nil hne
    rw [Ne, List.take_eq_nil_iff, not_or]
    exact ⟨by simp [trail], hold⟩

theorem extension?_of_idle (h : segments p = before ++ name :: idle) (hname : IsName name)
    (hidle : ∀ s ∈ idle, IsIdle s) : extension? p = (splitExtension name).2 := by
  rw [extension?, splitName?_of_idle h hname hidle]
  rfl

theorem setExtension_of_idle (h : segments p = before ++ (stem ++ '.' :: old) :: idle)
    (hstem : stem ≠ []) (hold : old ≠ []) (hidle : ∀ s ∈ idle, IsIdle s) (hdot : '.' ∉ old)
    (hext : ext ≠ []) : setExtension p ext = join (before ++ [stem ++ '.' :: ext]) := by
  have hname : IsName (stem ++ '.' :: old) := isName_append hstem fun _ => hold
  rw [setExtension, splitName?_of_idle h hname hidle]
  dsimp only
  rw [splitExtension_append stem hdot, if_neg hstem, if_neg hext, join_concat_append]

/-- More than the file name at the end of the path of the results is dropped with the extension. -/
theorem segments_output_of_idle {e : String}
    (h : segments input.toList = before ++ (stem ++ '.' :: "json".toList) :: idle)
    (hstem : stem ≠ []) (hidle : ∀ s ∈ idle, IsIdle s) (hne : idle ≠ [])
    (he : IsExtension e.toList) :
    segments (output input e).toList = before ++ [stem ++ '.' :: e.toList] := by
  have hdot : '.' ∉ "json".toList := by decide
  have hold : "json".toList ≠ [] := by decide
  have hjson : extension? input.toList = some "json".toList := by
    rw [extension?_of_idle h (isName_append hstem fun _ => hold) hidle,
      splitExtension_append stem hdot, if_neg hstem]
  obtain ⟨old', idle', hcut, hidle', hdot', hold'⟩ := exists_of_cut h hidle hne hdot hold
  rw [output, String.toList_ofList, if_pos hjson, withExtension, hjson]
  dsimp only
  rw [setExtension_of_idle hcut hstem hold' hidle' hdot' he.ne_nil]
  refine segments_join_middle h (fun hmem => ?_) (List.forall_mem_nil _)
  rcases List.mem_append.mp hmem with hmem | hmem
  · exact notMem_of_segments_middle h (List.mem_append_left _ hmem)
  · rcases List.mem_cons.mp hmem with hslash | hslash
    · cases hslash
    · exact he.no_slash hslash

/-- If there is no `json` extension, the path is extended at its very end. -/
theorem output_of_extension?_ne {e : String} (h : extension? input.toList ≠ some "json".toList) :
    (output input e).toList = input.toList ++ '.' :: e.toList := by
  rw [output, String.toList_ofList, if_neg h]

/-! ### Components -/

theorem not_isIdle_append (s : List Char) (he : ext ≠ []) : ¬ IsIdle (s ++ '.' :: ext) := by
  rintro (h | h)
  · simp at h
  · rcases List.append_eq_singleton_iff.mp h with ⟨-, hext⟩ | ⟨-, hnil⟩
    · exact he (List.cons.inj hext).2
    · cases hnil

/-- Where the reports on one input are written, whatever their extensions. -/
inductive Placed (input : String) (cs : List Component) (name : List Char) : Prop where
  | replaced (stem : List Char) (hstem : stem ≠ []) (hname : name = stem ++ ".json".toList)
    (hdots : stem = ['.'] → ¬ name <:+ input.toList)
    (h : ∀ e : String, IsExtension e.toList →
      components (output input e).toList = cs ++ [.normal (stem ++ '.' :: e.toList)])
  | dots (hname : name = "..json".toList) (hend : name <:+ input.toList)
    (h : ∀ e : String, IsExtension e.toList →
      components (output input e).toList = cs ++ [.parent])
  | appended (hname : ∀ stem ≠ [], name ≠ stem ++ ".json".toList) (hend : name <:+ input.toList)
    (h : ∀ e : String, IsExtension e.toList →
      components (output input e).toList = cs ++ [.normal (name ++ '.' :: e.toList)])
  | inside (hname : ∀ stem ≠ [], name ≠ stem ++ ".json".toList) (hend : ¬ name <:+ input.toList)
    (last : List Char) (h : ∀ e : String, IsExtension e.toList →
      components (output input e).toList =
        cs ++ [.normal name] ++ (component? (last ++ '.' :: e.toList)).toList)

theorem splitExtension_json_iff :
    (splitExtension name).2 = some "json".toList ↔
      ∃ stem ≠ [], name = stem ++ ".json".toList := by
  constructor
  · intro h
    obtain ⟨hstem, -, hname⟩ := of_splitExtension h
    exact ⟨_, hstem, hname⟩
  · rintro ⟨stem, hstem, rfl⟩
    have hdot : '.' ∉ "json".toList := by decide
    have hsplit := splitExtension_append stem hdot
    rw [if_neg hstem] at hsplit
    exact congrArg Prod.snd hsplit

theorem reportName_json (hstem : stem ≠ []) :
    reportName (stem ++ ".json".toList) ext =
      if stem = ['.'] then ['.', '.'] else stem ++ '.' :: ext := by
  have hdot : '.' ∉ "json".toList := by decide
  have hsplit : splitExtension (stem ++ ".json".toList) = (stem, some "json".toList) :=
    (splitExtension_append stem hdot).trans (if_neg hstem)
  rw [reportName, hsplit, if_pos rfl]

theorem components_concat (h : segments p = before ++ [s]) (hs : IsName s) :
    components p = ofSegments before ++ [.normal s] := by
  rw [components_of_segments h hs.not_isIdle, component?_of_isName hs, List.filterMap_nil,
    List.append_nil]
  rfl

theorem components_dots (h : segments p = before ++ [['.', '.']]) :
    components p = ofSegments before ++ [.parent] :=
  (components_of_segments h (by decide)).trans (List.append_nil _)

theorem filterMap_component?_of_idle (h : ∀ s ∈ idle, IsIdle s) :
    idle.filterMap component? = [] :=
  List.filterMap_eq_nil_iff.mpr fun s hs => component?_of_isIdle (h s hs)

/-- With more behind the file name, the path is extended there. -/
theorem components_append_of_idle (h : segments p = before ++ name :: (idle ++ [s]))
    (hname : IsName name) (hidle : ∀ s ∈ idle, IsIdle s) (hext : '/' ∉ '.' :: ext) :
    components (p ++ '.' :: ext) =
      ofSegments before ++ [.normal name] ++ (component? (s ++ '.' :: ext)).toList := by
  have hsegments : segments (p ++ '.' :: ext) =
      before ++ name :: (idle ++ [s ++ '.' :: ext]) := by
    rw [← List.cons_append, ← List.append_assoc] at h ⊢
    exact segments_append h hext
  rw [components_of_segments hsegments hname.not_isIdle, component?_of_isName hname,
    List.filterMap_append, filterMap_component?_of_idle hidle, List.nil_append]
  cases hlast : component? (s ++ '.' :: ext) <;> simp [hlast]

theorem placed (h : components input.toList = cs ++ [.normal name]) : Placed input cs name := by
  obtain ⟨before, idle, hsegments, hname, hidle, rfl⟩ := exists_of_components h
  have hend := isSuffix_iff hsegments hname hidle
  by_cases hjson : ∃ stem ≠ [], name = stem ++ ".json".toList
  · obtain ⟨stem, hstem, rfl⟩ := hjson
    have hreport {ext : List Char} (hext : ext ≠ []) : IsName (stem ++ '.' :: ext) :=
      isName_append hstem fun _ => hext
    rcases eq_or_ne idle [] with rfl | hne
    · have houtput {e : String} (he : IsExtension e.toList) :=
        segments_output hsegments hname he
      simp only [reportName_json hstem] at houtput
      by_cases hdot : stem = ['.']
      · simp only [if_pos hdot] at houtput
        refine .dots (by rw [hdot]; rfl) (hend.mpr rfl) fun e he => ?_
        exact components_dots (houtput he)
      · simp only [if_neg hdot] at houtput
        refine .replaced stem hstem rfl (fun h => absurd h hdot) fun e he => ?_
        exact components_concat (houtput he) (hreport he.ne_nil)
    · refine .replaced stem hstem rfl (fun _ hs => hne (hend.mp hs)) fun e he => ?_
      have houtput := segments_output_of_idle hsegments hstem hidle hne he
      exact components_concat houtput (hreport he.ne_nil)
  · have hother : extension? input.toList ≠ some "json".toList := by
      rw [extension?_of_idle hsegments hname hidle]
      exact fun h => hjson (splitExtension_json_iff.mp h)
    have hstem : ∀ stem ≠ [], name ≠ stem ++ ".json".toList :=
      fun stem hne he => hjson ⟨stem, hne, he⟩
    have hslash {e : String} (he : IsExtension e.toList) : '/' ∉ '.' :: e.toList := by
      simpa using he.no_slash
    rcases List.eq_nil_or_concat idle with rfl | ⟨idle, last, rfl⟩
    · refine .appended hstem (hend.mpr rfl) fun e he => ?_
      rw [output_of_extension?_ne hother]
      exact components_concat (segments_append hsegments (hslash he))
        (isName_append hname.ne_nil fun _ => he.ne_nil)
    · rw [List.concat_eq_append] at hsegments hidle hend
      refine .inside hstem (fun hs => by simpa using hend.mp hs) last fun e he => ?_
      rw [output_of_extension?_ne hother]
      exact components_append_of_idle hsegments hname
        (fun s hs => hidle s (List.mem_append_left _ hs)) (hslash he)

theorem toList_ne {e e' : String} (h : e ≠ e') : e.toList ≠ e'.toList :=
  fun he => h (String.toList_injective he)

theorem normal_ne {e e' : List Char} (h : e ≠ e') (base : List Char) :
    cs ++ [.normal (base ++ '.' :: e)] ≠ cs ++ [.normal (base ++ '.' :: e')] := by
  intro he
  have hname := Component.normal.inj (List.singleton_inj.mp (List.append_cancel_left he))
  exact h (List.cons.inj (List.append_cancel_left hname)).2

theorem dots_json : "..json".toList = ['.'] ++ ".json".toList := rfl

namespace Placed

variable {e e' : String} (hplaced : Placed input cs name) (he : IsExtension e.toList)
include hplaced he

theorem components_replaced (hstem : stem ≠ []) (hname : name = stem ++ ".json".toList)
    (hend : stem = ['.'] → ¬ name <:+ input.toList) :
    components (output input e).toList = cs ++ [.normal (stem ++ '.' :: e.toList)] := by
  cases hplaced with
  | replaced stem' _ hname' _ h =>
    rw [hname] at hname'
    rw [h e he, List.append_cancel_right hname']
  | dots hname' hend' _ =>
    rw [hname, dots_json] at hname'
    exact absurd hend' (hend (List.append_cancel_right hname'))
  | appended hname' _ _ => exact absurd hname (hname' stem hstem)
  | inside hname' _ _ _ => exact absurd hname (hname' stem hstem)

theorem components_dots (hname : name = "..json".toList) (hend : name <:+ input.toList) :
    components (output input e).toList = cs ++ [.parent] := by
  cases hplaced with
  | replaced stem _ hname' hends _ =>
    rw [hname, dots_json] at hname'
    exact absurd hend (hends (List.append_cancel_right hname').symm)
  | dots _ _ h => exact h e he
  | appended hname' _ _ => exact absurd (hname.trans dots_json) (hname' ['.'] (by decide))
  | inside hname' _ _ _ => exact absurd (hname.trans dots_json) (hname' ['.'] (by decide))

theorem components_appended (hname : ∀ stem ≠ [], name ≠ stem ++ ".json".toList)
    (hend : name <:+ input.toList) :
    components (output input e).toList = cs ++ [.normal (name ++ '.' :: e.toList)] := by
  cases hplaced with
  | replaced stem hstem hname' _ _ => exact absurd hname' (hname stem hstem)
  | dots hname' _ _ => exact absurd (hname'.trans dots_json) (hname ['.'] (by decide))
  | appended _ _ h => exact h e he
  | inside _ hend' _ _ => exact absurd hend hend'

theorem components_ne (hjson : e ≠ "json") :
    components (output input e).toList ≠ cs ++ [.normal name] := by
  cases hplaced with
  | replaced stem _ hname _ h =>
    rw [h e he, hname]
    exact normal_ne (toList_ne hjson) stem
  | dots _ _ h =>
    rw [h e he]
    simp
  | appended _ _ h =>
    rw [h e he]
    simp
  | inside _ _ last h =>
    obtain ⟨c, hc⟩ := exists_component? (not_isIdle_append last he.ne_nil)
    rw [h e he, hc]
    simp

theorem components_eq_iff (he' : IsExtension e'.toList) (hne : e ≠ e') :
    components (output input e).toList = components (output input e').toList ↔
      name = "..json".toList ∧ name <:+ input.toList := by
  have hlists := toList_ne hne
  cases hplaced with
  | replaced stem _ hname hends h =>
    rw [h e he, h e' he']
    refine iff_of_false (normal_ne hlists stem) ?_
    rintro ⟨hname', hend⟩
    rw [hname, dots_json] at hname'
    exact hends (List.append_cancel_right hname') hend
  | dots hname hend h =>
    rw [h e he, h e' he']
    exact iff_of_true rfl ⟨hname, hend⟩
  | appended hname _ h =>
    rw [h e he, h e' he']
    refine iff_of_false (normal_ne hlists name) ?_
    rintro ⟨hname', -⟩
    exact hname ['.'] (by decide) (hname'.trans dots_json)
  | inside hname hend last h =>
    have hidle := not_isIdle_append last he.ne_nil
    have hidle' := not_isIdle_append last he'.ne_nil
    obtain ⟨c, hc⟩ := exists_component? hidle
    obtain ⟨c', hc'⟩ := exists_component? hidle'
    rw [h e he, h e' he', hc, hc']
    refine iff_of_false ?_ fun hand => hend hand.2
    intro heq
    have hcomponent : c = c' := List.singleton_inj.mp (List.append_cancel_left heq)
    have hsegment := component?_injective hidle (hc.trans (hcomponent ▸ hc'.symm))
    exact hlists (List.cons.inj (List.append_cancel_left hsegment)).2

end Placed

/-- What holds of the path of a report on results that are called `name` in `cs`. -/
structure ReportPaths (input ext : String) (cs : List Component) (name : List Char) : Prop where
  replaced {stem : List Char} : stem ≠ [] → name = stem ++ ".json".toList →
    (stem = ['.'] → ¬ name <:+ input.toList) →
      components (output input ext).toList = cs ++ [.normal (stem ++ '.' :: ext.toList)]
  dots : name = "..json".toList → name <:+ input.toList →
    components (output input ext).toList = cs ++ [.parent]
  appended : (∀ stem ≠ [], name ≠ stem ++ ".json".toList) → name <:+ input.toList →
    components (output input ext).toList = cs ++ [.normal (name ++ '.' :: ext.toList)]
  ne_input : components (output input ext).toList ≠ components input.toList
  eq_iff {ext' : String} : IsExtension ext'.toList → ext ≠ ext' →
    (components (output input ext).toList = components (output input ext').toList ↔
      name = "..json".toList ∧ name <:+ input.toList)

/-- The report is beside the results under the stem of their name, unless that is a lone dot at the
very end of the path. -/
theorem reportPaths_of_components {ext : String}
    (h : components input.toList = cs ++ [.normal name]) (hext : IsExtension ext.toList)
    (hjson : ext ≠ "json") : ReportPaths input ext cs name where
  replaced hstem hname hend := (placed h).components_replaced hext hstem hname hend
  dots hname hend := (placed h).components_dots hext hname hend
  appended hname hend := (placed h).components_appended hext hname hend
  ne_input := by
    rw [h]
    exact (placed h).components_ne hext hjson
  eq_iff hext' hne := (placed h).components_eq_iff hext hext' hne

theorem reportPaths_trailing :
    components (output "run/..json/" "csv").toList = [.normal "run".toList] ++
      [.normal (['.'] ++ '.' :: "csv".toList)] := by
  have h : components "run/..json/".toList = [.normal "run".toList] ++
      [.normal "..json".toList] := by decide +kernel
  have hext : IsExtension "csv".toList := ⟨by decide, by decide⟩
  refine (reportPaths_of_components h hext (by decide)).replaced (by decide) dots_json fun _ => ?_
  decide +kernel

/-- No report is written beside results that are called `..json`, and all reports have one path. -/
theorem output_dots :
    components "..json".toList = [] ++ [.normal "..json".toList] ∧
      output "..json" "csv" = ".." ∧ output "..json" "html" = ".." := by
  decide +kernel

end LoadReport.Path
