import LoadReport.Program
import LoadReport.Proofs.Report.Writing
import LoadReport.Proofs.Session

/-! # Delivering reports

Report files are delivered one after another: each is opened, written and announced. The delivery
ends early with one that cannot be opened, one for which the disk has no room, or one whose
announcement cannot be printed. What has been delivered before stays, unless a later path leads to
the same place.
-/

namespace LoadReport.Report

open FileTree Program

/-- A report file that is asked for, and the line that announces it. -/
structure Target where
  path : String
  text : String
  notice : String

/-- All that is written in the files of targets. -/
def filed (fs : List Target) : String := String.join (fs.map (·.text))

/-- All that is printed to announce targets. -/
def announced (fs : List Target) : String := String.join (fs.map (·.notice))

variable {α : Type} {room : Option Limit} {t t' t'' : FileTree} {f g : Target}
  {fs gs done cut rest : List Target} {r : Except Stop Unit} {text path notice : String}
  {fault : Fault}

@[simp]
theorem filed_nil : filed [] = "" := rfl

@[simp]
theorem announced_nil : announced [] = "" := rfl

@[simp]
theorem filed_cons (f : Target) (fs : List Target) : filed (f :: fs) = f.text ++ filed fs :=
  String.join_cons

@[simp]
theorem announced_cons (f : Target) (fs : List Target) :
    announced (f :: fs) = f.notice ++ announced fs :=
  String.join_cons

@[simp]
theorem filed_append (fs gs : List Target) : filed (fs ++ gs) = filed fs ++ filed gs := by
  rw [filed, List.map_append, String.join_append]
  rfl

@[simp]
theorem announced_append (fs gs : List Target) :
    announced (fs ++ gs) = announced fs ++ announced gs := by
  rw [announced, List.map_append, String.join_append]
  rfl

/-- The file of a target has been opened, and has got as much of the text as there was room for. -/
inductive Saved (f : Target) (t : FileTree) : FileTree → Prop
  | mk {t' : FileTree} {n : Node} (h : t.create f.path = .ok (t', n)) :
    Saved f t (t'.close n (part t.limit f.text) (after t.limit f.text))

/-- Targets are delivered on the files `t` after a text has been printed. Those in `done` are
written in full, and `cut` holds one that is written in part. -/
inductive Delivery (room : Option Limit) : FileTree → String → List Target → Except Stop Unit →
    List Target → List Target → FileTree → Prop
  | nil (t : FileTree) (text : String) : Delivery room t text [] (.ok ()) [] [] t
  | refused {t : FileTree} {f : Target} {fault : Fault} (text : String) (fs : List Target)
    (h : t.create f.path = .error fault) :
    Delivery room t text (f :: fs) (.error (.failure (.write f.path fault))) [] [] t
  | cut {t t' : FileTree} {f : Target} {fault : Fault} (text : String) (fs : List Target)
    (h : Saved f t t') (hdisk : fits t.limit f.text = .error fault) :
    Delivery room t text (f :: fs) (.error (.failure (.write f.path fault))) [] [f] t'
  | unannounced {t t' : FileTree} {f : Target} {fault : Fault} {text : String} (fs : List Target)
    (h : Saved f t t') (hdisk : fits t.limit f.text = .ok ())
    (hprint : fits room (text ++ f.notice) = .error fault) :
    Delivery room t text (f :: fs) (.error (.panic fault)) [f] [] t'
  | next {t t' t'' : FileTree} {f : Target} {fs done cut : List Target} {r : Except Stop Unit}
    {text : String} (h : Saved f t t') (hdisk : fits t.limit f.text = .ok ())
    (hprint : fits room (text ++ f.notice) = .ok ())
    (hrest : Delivery room t' (text ++ f.notice) fs r done cut t'') :
    Delivery room t text (f :: fs) r (f :: done) cut t''

theorem Saved.overwrites (h : Saved f t t') : Overwrites t f.path (part t.limit f.text) t' := by
  obtain ⟨h⟩ := h
  exact overwrites_of_create h _ _

theorem Saved.limit (h : Saved f t t') : t'.limit = after t.limit f.text := by
  obtain ⟨h⟩ := h
  rfl

theorem Saved.writable (h : Saved f t t') : t.Writable f.path := by
  obtain ⟨h⟩ := h
  exact exists_create_iff.mp ⟨_, _, h⟩

theorem Saved.content (h : Saved f t t') : t'.content? f.path = some (part t.limit f.text) :=
  h.overwrites.content f.path h.writable.samePlace

namespace Delivery

theorem samePlace_iff (h : Delivery room t text fs r done cut t') (p p' : String) :
    t'.SamePlace p p' ↔ t.SamePlace p p' := by
  induction h with
  | nil | refused => exact Iff.rfl
  | cut _ _ h | unannounced _ h => exact h.overwrites.samePlace_iff p p'
  | next h _ _ _ ih => exact ih.trans (h.overwrites.samePlace_iff p p')

theorem writable_iff (h : Delivery room t text fs r done cut t') (p : String) :
    t'.Writable p ↔ t.Writable p := by
  induction h with
  | nil | refused => exact Iff.rfl
  | cut _ _ h | unannounced _ h => exact h.overwrites.writable_iff p
  | next h _ _ _ ih => exact ih.trans (h.overwrites.writable_iff p)

/-- No path sees a difference unless it leads where a target has been opened. -/
theorem seen_eq (h : Delivery room t text fs r done cut t')
    (hpath : ∀ f ∈ done ++ cut, ¬ t.SamePlace f.path path) : t'.seen path = t.seen path := by
  induction h with
  | nil | refused => rfl
  | cut _ _ h | unannounced _ h => exact h.overwrites.seen path (hpath _ List.mem_cons_self)
  | next h _ _ _ ih =>
    rw [List.cons_append, List.forall_mem_cons] at hpath
    rw [ih fun g hg => ?_, h.overwrites.seen path hpath.1]
    rw [h.overwrites.samePlace_iff]
    exact hpath.2 g hg

theorem content_eq (h : Delivery room t text fs r done cut t')
    (hpath : ∀ f ∈ done ++ cut, ¬ t.SamePlace f.path path) :
    t'.content? path = t.content? path := by
  unfold content?
  rw [h.seen_eq hpath]

/-- What is written in full is there in the end, unless a later target leads to the same place. -/
theorem content_of_done {before later : List Target}
    (h : Delivery room t text fs r done cut t') (hdone : done = before ++ f :: later)
    (hpath : t.SamePlace f.path path) (hlater : ∀ g ∈ later ++ cut, ¬ t.SamePlace g.path path) :
    t'.content? path = some (Utf8.encode f.text) := by
  induction h generalizing before with
  | nil | refused | cut => simp at hdone
  | unannounced fs h hdisk =>
    cases before with
    | nil =>
      cases hdone
      rw [h.overwrites.content path hpath, part_of_ok hdisk]
    | cons g before => simp at hdone
  | next h hdisk _ hrest ih =>
    cases before with
    | nil =>
      obtain ⟨rfl, rfl⟩ := List.cons.inj hdone
      rw [hrest.content_eq fun g hg => ?_, h.overwrites.content path hpath, part_of_ok hdisk]
      rw [h.overwrites.samePlace_iff]
      exact hlater g hg
    | cons g before =>
      rw [← h.overwrites.samePlace_iff] at hpath
      refine ih (List.cons.inj hdone).2 hpath fun g hg => ?_
      rw [h.overwrites.samePlace_iff]
      exact hlater g hg

theorem fits_done (h : Delivery room t text fs r done cut t') :
    fits t.limit (filed done) = .ok () := by
  induction h with
  | nil | refused | cut => exact fits_empty _
  | @unannounced t t' f fault text fs h hdisk =>
    have hfiled : filed [f] = f.text := by simp [filed]
    rw [hfiled, hdisk]
  | next h hdisk _ _ ih =>
    rw [filed_cons, fits_append hdisk, ← h.limit, ih]

/-- Why the delivery has ended. -/
inductive Ending (room : Option Limit) (t : FileTree) (text : String) (done : List Target)
    (t' : FileTree) : List Target → List Target → Except Stop Unit → Prop
  | complete (hprint : fits room (text ++ announced done) = .ok ()) :
    Ending room t text done t' [] [] (.ok ())
  | unannounced {fault : Fault} (rest : List Target) (hdone : done ≠ [])
    (hprint : fits room (text ++ announced done) = .error fault) :
    Ending room t text done t' [] rest (.error (.panic fault))
  | refused {f : Target} {fault : Fault} (rest : List Target)
    (hprint : fits room (text ++ announced done) = .ok ()) (h : ¬ t.Writable f.path)
    (hcreate : t'.create f.path = .error fault) :
    Ending room t text done t' [] (f :: rest) (.error (.failure (.write f.path fault)))
  | cut {f : Target} {fault : Fault} (rest : List Target)
    (hprint : fits room (text ++ announced done) = .ok ()) (h : t.Writable f.path)
    (hdisk : fits t.limit (filed done ++ f.text) = .error fault)
    (hcontent : t'.content? f.path = some (part (after t.limit (filed done)) f.text)) :
    Ending room t text done t' [f] (f :: rest) (.error (.failure (.write f.path fault)))

theorem Ending.subset (h : Ending room t text done t' cut rest r) : cut ⊆ rest := by
  cases h with
  | complete | unannounced | refused => exact List.nil_subset _
  | cut rest => simp

theorem Ending.next (h : Saved f t t') (hdisk : fits t.limit f.text = .ok ())
    (hend : Ending room t' (text ++ f.notice) done t'' cut rest r) :
    Ending room t text (f :: done) t'' cut rest r := by
  have hannounced : text ++ f.notice ++ announced done = text ++ announced (f :: done) := by
    rw [announced_cons, String.append_assoc]
  cases hend with
  | complete hprint =>
    rw [hannounced] at hprint
    exact .complete hprint
  | unannounced rest hdone hprint =>
    rw [hannounced] at hprint
    exact .unannounced rest (List.cons_ne_nil f done) hprint
  | refused rest hprint hg hcreate =>
    rw [hannounced] at hprint
    rw [h.overwrites.writable_iff] at hg
    exact .refused rest hprint hg hcreate
  | cut rest hprint hg hroom hcontent =>
    rw [hannounced] at hprint
    rw [h.overwrites.writable_iff] at hg
    rw [h.limit, ← fits_append hdisk, ← String.append_assoc, ← filed_cons] at hroom
    rw [h.limit, ← after_append, ← filed_cons] at hcontent
    exact .cut rest hprint hg hroom hcontent

/-- The delivery goes on to the end, or to the first fault. -/
theorem exists_rest (h : Delivery room t text fs r done cut t')
    (htext : fits room text = .ok ()) :
    ∃ rest, fs = done ++ rest ∧ Ending room t text done t' cut rest r := by
  induction h with
  | nil t text =>
    refine ⟨[], rfl, .complete ?_⟩
    rw [announced_nil, String.append_empty, htext]
  | refused text fs h =>
    refine ⟨_, rfl, .refused fs ?_ (fun hwritable => ?_) h⟩
    · rw [announced_nil, String.append_empty, htext]
    · obtain ⟨_, _, hcreate⟩ := exists_create_iff.mpr hwritable
      cases h.symm.trans hcreate
  | @cut t t' f fault text fs h hdisk =>
    refine ⟨_, rfl, .cut fs ?_ h.writable ?_ ?_⟩
    · rw [announced_nil, String.append_empty, htext]
    · rw [filed_nil, String.empty_append, hdisk]
    · rw [filed_nil, after_empty, h.content]
  | @unannounced t t' f fault text fs h hdisk hprint =>
    have hnotice : announced [f] = f.notice := by simp [announced]
    refine ⟨fs, rfl, .unannounced fs (List.cons_ne_nil f []) ?_⟩
    rw [hnotice, hprint]
  | next h hdisk hprint hrest ih =>
    obtain ⟨rest, rfl, hend⟩ := ih hprint
    exact ⟨rest, rfl, hend.next h hdisk⟩

theorem opened_subset (h : Delivery room t text fs r done cut t')
    (htext : fits room text = .ok ()) : done ++ cut ⊆ fs := by
  obtain ⟨rest, rfl, hend⟩ := h.exists_rest htext
  exact List.append_subset.mpr ⟨List.subset_append_left done rest,
    List.subset_append_of_subset_right done hend.subset⟩

theorem writable_of_done (h : Delivery room t text fs r done cut t') :
    ∀ f ∈ done, t.Writable f.path := by
  induction h with
  | nil | refused | cut => exact List.forall_mem_nil _
  | unannounced fs h => simpa using h.writable
  | next h _ _ _ ih =>
    rw [List.forall_mem_cons]
    refine ⟨h.writable, fun g hg => ?_⟩
    rw [← h.overwrites.writable_iff]
    exact ih g hg

/-- All is delivered just if every file can be written, the disk has room for all of them, and all
of the announcements can be printed. -/
theorem eq_ok_iff (h : Delivery room t text fs r done cut t') (htext : fits room text = .ok ()) :
    r = .ok () ↔ (∀ f ∈ fs, t.Writable f.path) ∧ fits t.limit (filed fs) = .ok () ∧
      fits room (text ++ announced fs) = .ok () := by
  obtain ⟨rest, rfl, hend⟩ := h.exists_rest htext
  cases hend with
  | complete hprint =>
    rw [List.append_nil]
    exact iff_of_true rfl ⟨h.writable_of_done, h.fits_done, hprint⟩
  | unannounced rest _ hprint =>
    refine iff_of_false nofun fun hall => ?_
    rw [announced_append, ← String.append_assoc, fits_append_error hprint] at hall
    cases hall.2.2
  | refused rest _ hf =>
    refine iff_of_false nofun fun hall => hf (hall.1 _ ?_)
    exact List.mem_append_right done List.mem_cons_self
  | cut rest _ _ hdisk =>
    refine iff_of_false nofun fun hall => ?_
    rw [filed_append, filed_cons, ← String.append_assoc, fits_append_error hdisk] at hall
    cases hall.2.1

end Delivery

/-! ## Procedures that deliver -/

theorem yields_lift {x : Action α} {a : Except Failure α} {text' : String}
    (hx : Yields room x t text a t' text') :
    Yields room (x : Procedure α) t text (a.mapError .failure) t' text' :=
  hx.adapt Stop.failure

theorem bind_of_answers {β : Type} {x : Action α} {f : α → Procedure β} {a : α}
    {g : FileTree → Except Failure α} {b : Except Stop β} {text' : String} (hx : x.Answers g)
    (hg : g t = .ok a) (hf : Yields room (f a) t text b t' text') :
    Yields room ((x : Procedure α) >>= f) t text b t' text' := by
  have hyields := yields_lift (hx.yields room t text)
  rw [hg] at hyields
  exact hyields.bind hf

theorem bind_of_answers_error {β : Type} {x : Action α} {f : α → Procedure β} {e : Failure}
    {g : FileTree → Except Failure α} (hx : x.Answers g) (hg : g t = .error e) (text : String) :
    Yields room ((x : Procedure α) >>= f) t text (.error (.failure e)) t text := by
  have hyields := yields_lift (hx.yields room t text)
  rw [hg] at hyields
  exact hyields.bind_error

structure Saves (room : Option Limit) (x : Action α) (f : Target) : Prop where
  ok : ∀ t t' text, Saved f t t' → fits t.limit f.text = .ok () →
    ∃ a, Yields room x t text (.ok a) t' text
  cut : ∀ t t' text fault, Saved f t t' → fits t.limit f.text = .error fault →
    Yields room x t text (.error (.write f.path fault)) t' text
  refused : ∀ t text fault, t.create f.path = .error fault →
    Yields room x t text (.error (.write f.path fault)) t text

/-- The procedure delivers targets. -/
def Delivers (room : Option Limit) (z : Procedure Unit) (fs : List Target) : Prop :=
  ∀ t text, fits room text = .ok () → ∃ r done cut t',
    Delivery room t text fs r done cut t' ∧ Yields room z t text r t' (text ++ announced done)

theorem saves_of_writes {β : Type} {y : Writer β} {b : β} {k : β → Action α} {a : α}
    (hy : Writes y text b) (hk : (k b).Answers fun _ => .ok a) (path notice : String) :
    Saves room (do
      let b ← Action.writeFile path y
      k b) ⟨path, text, notice⟩ := by
  constructor
  case ok =>
    rintro t _ printed ⟨h⟩ hdisk
    have hwrite := Action.yields_writeFile hy h room printed
    rw [hdisk] at hwrite
    exact ⟨a, hwrite.bind (hk.yields room _ _)⟩
  case cut =>
    rintro t _ printed fault ⟨h⟩ hdisk
    have hwrite := Action.yields_writeFile hy h room printed
    rw [hdisk] at hwrite
    exact hwrite.bind_error
  case refused =>
    intro t printed fault h
    exact (Action.yields_writeFile_error h printed).bind_error

theorem saves_saveCsv (path notice : String) (r : Run) (s : Settings) :
    Saves room (saveCsv path r s) ⟨path, Csv.text r s, notice⟩ :=
  saves_of_writes (Csv.writes_write r s)
    ((Action.answers_log _).bind fun _ => Action.answers_pure _) path notice

theorem saves_saveHtml (path notice : String) (r : Run) (s : Settings) :
    Saves room (saveHtml path r s) ⟨path, Html.text r s, notice⟩ :=
  saves_of_writes (writes_put _) (Action.answers_log _) path notice

theorem delivers_pure : Delivers room (pure ()) [] := by
  intro t text _
  refine ⟨_, [], [], t, .nil t text, ?_⟩
  rw [announced_nil, String.append_empty]
  exact yields_pure () t text

theorem delivers_cons {x : Action α} {z : Procedure Unit} {line : String}
    (hx : Saves room x ⟨path, text, line ++ "\n"⟩) (hz : Delivers room z fs) :
    Delivers room (do
      let _ ← x
      announce line
      z) (⟨path, text, line ++ "\n"⟩ :: fs) := by
  intro t printed hprinted
  let f : Target := ⟨path, text, line ++ "\n"⟩
  cases hcreate : t.create path with
  | error fault =>
    refine ⟨_, [], [], t, .refused (f := f) printed fs hcreate, ?_⟩
    rw [announced_nil, String.append_empty]
    exact (yields_lift (hx.refused t printed fault hcreate)).bind_error
  | ok opened =>
    obtain ⟨opened, n⟩ := opened
    let t₁ : FileTree := opened.close n (part t.limit text) (after t.limit text)
    have hsaved : Saved f t t₁ := .mk hcreate
    obtain hdisk | ⟨fault, hdisk⟩ := fits_cases t.limit text
    · obtain ⟨a, hsave⟩ := hx.ok t t₁ printed hsaved hdisk
      have hannounce := Process.yields_print Stop.panic (writes_put (line ++ "\n")) hprinted t₁
      obtain hprint | ⟨fault, hprint⟩ := fits_cases room (printed ++ (line ++ "\n"))
      · rw [hprint] at hannounce
        obtain ⟨r, done, cut, t', hdelivery, hrest⟩ := hz _ _ hprint
        refine ⟨r, f :: done, cut, t', .next hsaved hdisk hprint hdelivery, ?_⟩
        rw [announced_cons, ← String.append_assoc]
        exact (yields_lift hsave).bind (hannounce.bind hrest)
      · rw [hprint] at hannounce
        have hnotice : announced [f] = line ++ "\n" := by simp [announced, f]
        refine ⟨_, [f], [], t₁, .unannounced fs hsaved hdisk hprint, ?_⟩
        rw [hnotice]
        exact (yields_lift hsave).bind hannounce.bind_error
    · refine ⟨_, [], [f], t₁, .cut printed fs hsaved hdisk, ?_⟩
      rw [announced_nil, String.append_empty]
      exact (yields_lift (hx.cut t t₁ printed fault hsaved hdisk)).bind_error

theorem delivers_singleton {x : Action α} {line : String}
    (hx : Saves room x ⟨path, text, line ++ "\n"⟩) :
    Delivers room (do
      let _ ← x
      announce line) [⟨path, text, line ++ "\n"⟩] := by
  have h := delivers_cons hx delivers_pure
  rwa [bind_pure_unit] at h

end LoadReport.Report
