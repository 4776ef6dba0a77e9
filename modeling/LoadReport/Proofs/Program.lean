import LoadReport.Proofs.Loading
import LoadReport.Proofs.Report.Delivery

/-! # The effects of the program

A run that cannot load its settings or its results leaves nothing behind. Any other run prints the
console report and delivers the report files that are asked for, as far as it gets. A file changes
only if the path of a report leads to it, and in a tree without links that of the results does not.
-/

namespace LoadReport

open FileTree Report

variable {o : Options} {s : Settings} {r : Run} {t t' : FileTree} {bytes : List UInt8}
  {ext ext' text path : String} {e : Failure} {a : Except Program.Stop Unit}
  {done cut rest : List Target} {out : Program.Outcome} {args : List String}
  {room : Option Limit} {q : Place}

namespace Options

/-- The paths of the report files that are asked for. -/
def outputs (o : Options) : List String :=
  (if o.csv then [Path.output o.input "csv"] else []) ++
    if o.html then [Path.output o.input "html"] else []

/-- The report files that are asked for, in the order of delivery. -/
def targets (o : Options) (r : Run) (s : Settings) : List Target :=
  let csv := Path.output o.input "csv"
  let html := Path.output o.input "html"
  (if o.csv then [⟨csv, Csv.text r s, "CSV file written: " ++ csv ++ "\n"⟩] else []) ++
    if o.html then [⟨html, Html.text r s, "HTML report written: " ++ html ++ "\n"⟩] else []

theorem map_path_targets (o : Options) (r : Run) (s : Settings) :
    (o.targets r s).map (·.path) = o.outputs := by
  unfold targets outputs
  cases o.csv <;> cases o.html <;> rfl

end Options

/-! ## Trees without links -/

theorem isExtension_csv : Path.IsExtension "csv".toList := ⟨by decide, by decide⟩

theorem isExtension_html : Path.IsExtension "html".toList := ⟨by decide, by decide⟩

/-- The path of a report does not lead to the results. -/
theorem FileTree.Plain.not_samePlace_input (h : t.Plain) (hread : t.read o.input = .ok bytes)
    (hext : Path.IsExtension ext.toList) (hjson : ext.toList ≠ "json".toList) :
    ¬ t.SamePlace (Path.output o.input ext) o.input := by
  obtain ⟨ss, name, hsegments, hname⟩ := h.exists_name hread
  rintro ⟨q, hq, hq'⟩
  have hne : name ≠ Path.reportName name ext.toList := (Path.reportName_ne hjson).symm
  obtain ⟨n, rfl, hdir⟩ := h.isDirectory_of_locate hsegments
    (Path.segments_output hsegments hname hext) (fun hsame => hne hsame.1) hq' hq
  exact hdir.not_read hq' hread

/-- The paths of two reports lead to one place only if no file can be written there. -/
theorem FileTree.Plain.not_writable_of_samePlace (h : t.Plain) (hread : t.read o.input = .ok bytes)
    (hext : Path.IsExtension ext.toList) (hext' : Path.IsExtension ext'.toList)
    (hne : ext.toList ≠ ext'.toList)
    (hsame : t.SamePlace (Path.output o.input ext') (Path.output o.input ext)) :
    ¬ t.Writable (Path.output o.input ext) := by
  obtain ⟨ss, name, hsegments, hname⟩ := h.exists_name hread
  obtain ⟨q, hq', hq⟩ := hsame
  obtain ⟨n, rfl, hdir⟩ := h.isDirectory_of_locate (Path.segments_output hsegments hname hext)
    (Path.segments_output hsegments hname hext')
    (fun ⟨hreports, hreport⟩ =>
      hreport.ne_dots (Path.eq_dots_of_reportName_eq hne hreports)) hq hq'
  exact hdir.not_writable hq

/-- In a tree without links no report takes the place of the results, and none that of another. -/
structure Options.Apart (o : Options) (t : FileTree) : Prop where
  input : ∀ p ∈ o.outputs, ¬ t.SamePlace p o.input
  outputs : o.outputs.Pairwise fun p p' => t.Writable p → ¬ t.SamePlace p' p

theorem FileTree.Plain.apart (h : t.Plain) (hread : t.read o.input = .ok bytes) : o.Apart t := by
  have hcsv := h.not_samePlace_input hread isExtension_csv (by decide)
  have hhtml := h.not_samePlace_input hread isExtension_html (by decide)
  constructor
  · unfold Options.outputs
    cases o.csv <;> cases o.html <;> simp [hcsv, hhtml]
  · have hboth : t.Writable (Path.output o.input "csv") →
        ¬ t.SamePlace (Path.output o.input "html") (Path.output o.input "csv") :=
      fun hwritable hsame => h.not_writable_of_samePlace hread isExtension_csv isExtension_html
        (by decide) hsame hwritable
    unfold Options.outputs
    cases o.csv <;> cases o.html <;> simp
    exact hboth

/-! ## What a run does -/

namespace Program

/-- What a run reports on: the settings, and the results as they are read with these. -/
def loaded (o : Options) (t : FileTree) : Except Failure (Settings × Run) := do
  let s ← (Settings.load o.settings).result t
  let bytes ← (t.read o.input).mapError (.read o.input)
  return (s, Run.ofBytes s bytes)

theorem loaded_cases (o : Options) (t : FileTree) :
    (∃ e, (Settings.load o.settings).result t = .error e ∧ loaded o t = .error e) ∨
      ∃ s, (Settings.load o.settings).result t = .ok s ∧
        ((∃ fault, t.read o.input = .error fault ∧ loaded o t = .error (.read o.input fault)) ∨
          ∃ bytes, t.read o.input = .ok bytes ∧ loaded o t = .ok (s, Run.ofBytes s bytes)) := by
  unfold loaded
  cases (Settings.load o.settings).result t with
  | error e => exact .inl ⟨e, rfl, rfl⟩
  | ok s =>
    cases t.read o.input with
    | error fault => exact .inr ⟨s, rfl, .inl ⟨fault, rfl, rfl⟩⟩
    | ok bytes => exact .inr ⟨s, rfl, .inr ⟨bytes, rfl, rfl⟩⟩

theorem exists_read_of_loaded (h : loaded o t = .ok (s, r)) :
    ∃ bytes, t.read o.input = .ok bytes := by
  obtain ⟨e, -, he⟩ | ⟨_, -, ⟨fault, -, he⟩ | ⟨bytes, hread, -⟩⟩ := loaded_cases o t
  · cases he.symm.trans h
  · cases he.symm.trans h
  · exact ⟨bytes, hread⟩

theorem run_of_error (h : loaded o t = .error e) :
    Yields room (run o) t "" (.error (.failure e)) t "" := by
  obtain ⟨e', hs, he⟩ | ⟨s, hs, ⟨fault, hread, he⟩ | ⟨bytes, -, he⟩⟩ := loaded_cases o t
  · obtain rfl : e' = e := Except.error.inj (he.symm.trans h)
    exact bind_of_answers_error (Settings.quiet_load o.settings) hs ""
  · obtain rfl : Failure.read o.input fault = e := Except.error.inj (he.symm.trans h)
    apply bind_of_answers (Settings.quiet_load o.settings) hs
    apply bind_of_answers (Action.answers_log _) rfl
    apply bind_of_answers_error (Run.answers_load o.input s)
    rw [hread]
    rfl
  · cases he.symm.trans h

theorem delivers_targets (room : Option Limit) (o : Options) (r : Run) (s : Settings) :
    Delivers room (do
      if o.csv then
        let path := Path.output o.input "csv"
        let _ ← saveCsv path r s
        announce ("CSV file written: " ++ path)
      if o.html then
        let path := Path.output o.input "html"
        saveHtml path r s
        announce ("HTML report written: " ++ path)) (o.targets r s) := by
  unfold Options.targets
  cases o.csv <;> cases o.html
  · exact delivers_pure
  · exact delivers_singleton (saves_saveHtml _ _ r s)
  · exact delivers_cons (saves_saveCsv _ _ r s) delivers_pure
  · exact delivers_cons (saves_saveCsv _ _ r s) (delivers_singleton (saves_saveHtml _ _ r s))

/-- Once it is known what to report on, the console report comes first, and then the delivery. -/
theorem run_of_loaded (room : Option Limit) (h : loaded o t = .ok (s, r)) : ∃ z : Procedure Unit,
    Delivers room z (o.targets r s) ∧ ∀ {a t' text},
      Yields room (Process.print (fun fault => Stop.failure (.console fault)) (Console.write r s) >>=
        fun _ => z) t "" a t' text → Yields room (run o) t "" a t' text := by
  obtain ⟨e, -, he⟩ | ⟨s', hs, ⟨fault, -, he⟩ | ⟨bytes, hread, he⟩⟩ := loaded_cases o t
  · cases he.symm.trans h
  · cases he.symm.trans h
  obtain ⟨rfl, rfl⟩ := Prod.mk.inj (Except.ok.inj (he.symm.trans h))
  have hload : ((t.read o.input).map (Run.ofBytes s')).mapError (Failure.read o.input) =
      .ok (Run.ofBytes s' bytes) := by
    rw [hread]
    rfl
  refine ⟨_, delivers_targets room o (Run.ofBytes s' bytes) s', fun hyields => ?_⟩
  apply bind_of_answers (Settings.quiet_load o.settings) hs
  apply bind_of_answers (Action.answers_log _) rfl
  apply bind_of_answers (Run.answers_load o.input s') hload
  exact hyields

/-- If the console report cannot be printed, nothing is delivered. -/
theorem run_of_ok (h : loaded o t = .ok (s, r)) :
    (∃ fault, fits room (Console.text r s) = .error fault ∧
      Yields room (run o) t "" (.error (.failure (.console fault))) t (Console.text r s)) ∨
    fits room (Console.text r s) = .ok () ∧ ∃ a done cut t',
      Delivery room t (Console.text r s) (o.targets r s) a done cut t' ∧
        Yields room (run o) t "" a t' (Console.text r s ++ announced done) := by
  obtain ⟨z, hdelivers, hrun⟩ := run_of_loaded room h
  have hprint := Process.yields_print (fun fault => Stop.failure (.console fault))
    (Console.writes_write r s) (fits_empty room) t
  rw [String.empty_append] at hprint
  obtain hfits | ⟨fault, hfits⟩ := fits_cases room (Console.text r s)
  · rw [hfits] at hprint
    obtain ⟨a, done, cut, t', hdelivery, hyields⟩ := hdelivers t _ hfits
    exact .inr ⟨hfits, a, done, cut, t', hdelivery, hrun (hprint.bind hyields)⟩
  · rw [hfits] at hprint
    exact .inl ⟨fault, hfits, hrun hprint.bind_error⟩

/-! ## Outcomes -/

/-- Status and message tell how the run has ended. -/
def Outcome.Ends (out : Outcome) : Except Stop Unit → Prop
  | .ok () => out.status = 0 ∧ out.message = none
  | .error (.failure e) => out.status = 1 ∧ out.message = some ("error: " ++ e.message)
  | .error (.panic fault) =>
    out.status = 101 ∧ out.message = some ("failed printing to stdout: " ++ fault.message)

theorem Outcome.Ends.status_eq_zero_iff (h : out.Ends a) : out.status = 0 ↔ a = .ok () := by
  rcases a with (e | fault) | ⟨⟨⟩⟩
  · simp [h.1]
  · simp [h.1]
  · simp [h.1]

/-- Nothing has been done but to fail. -/
structure Aborts (t : FileTree) (e : Failure) (out : Outcome) : Prop where
  ends : out.Ends (.error (.failure e))
  output : out.stdout.accepted = #[]
  files : out.files = t

/-- The console report has been printed, as far as the output takes it, and the targets in `done`
have been delivered. In a tree without links their files are there in the end; with links, those
whose place no later target has taken. -/
structure Reports (t : FileTree) (room : Option Limit) (text : String) (done cut rest : List Target)
    (out : Outcome) : Prop where
  output : out.stdout.accepted.toList = part room (text ++ announced done)
  written : ∀ before f later path, done = before ++ f :: later → t.SamePlace f.path path →
    (∀ g ∈ later ++ cut, ¬ t.SamePlace g.path path) →
      out.files.content? path = some (Utf8.encode f.text)
  plain : t.Plain → ∀ f ∈ done, out.files.content? f.path = some (Utf8.encode f.text)
  elsewhere : ∀ path, (∀ f ∈ done ++ cut, ¬ t.SamePlace f.path path) →
    out.files.seen path = t.seen path
  ends : (∃ fault, fits room text = .error fault ∧ done = [] ∧ cut = [] ∧
      out.Ends (.error (.failure (.console fault)))) ∨
    fits room text = .ok () ∧
      ∃ a, Delivery.Ending room t text done out.files cut rest a ∧ out.Ends a

/-- What a run does with the files it starts from, and with an output that takes a number of bytes.
-/
structure Effects (o : Options) (t : FileTree) (room : Option Limit) (out : Outcome) : Prop where
  aborts : ∀ e, loaded o t = .error e → Aborts t e out
  reports : ∀ s r, loaded o t = .ok (s, r) → ∃ done cut rest, o.targets r s = done ++ rest ∧
    Reports t room (Console.text r s) done cut rest out
  /-- Nothing changes but where the paths of the reports lead. -/
  elsewhere : ∀ path, (∀ p ∈ o.outputs, ¬ t.SamePlace p path) →
    out.files.seen path = t.seen path
  samePlace_iff : ∀ p p', out.files.SamePlace p p' ↔ t.SamePlace p p'
  input : (∀ p ∈ o.outputs, ¬ t.SamePlace p o.input) →
    ∀ bytes, out.files.read o.input = .ok bytes ↔ t.read o.input = .ok bytes
  plain : t.Plain → ∀ bytes, out.files.read o.input = .ok bytes ↔ t.read o.input = .ok bytes
  succeeds_iff : out.status = 0 ↔ ∃ s r, loaded o t = .ok (s, r) ∧
    (∀ p ∈ o.outputs, t.Writable p) ∧ fits t.limit (filed (o.targets r s)) = .ok () ∧
      fits room (Console.text r s ++ announced (o.targets r s)) = .ok ()

theorem effects_of_aborts (h : loaded o t = .error e) (hout : Aborts t e out) :
    Effects o t room out := by
  constructor
  case aborts =>
    intro e' he
    obtain rfl : e = e' := Except.error.inj (h.symm.trans he)
    exact hout
  case reports =>
    intro s r hr
    cases h.symm.trans hr
  case succeeds_iff =>
    rw [hout.ends.status_eq_zero_iff]
    constructor
    · rintro ⟨⟩
    · rintro ⟨s, r, hr, -⟩
      cases h.symm.trans hr
  all_goals simp [hout.files]

theorem pairwise_targets (h : o.Apart t) (r : Run) (s : Settings) : (o.targets r s).Pairwise
    fun f g => t.Writable f.path → ¬ t.SamePlace g.path f.path := by
  have houtputs := h.outputs
  rwa [← Options.map_path_targets o r s, List.pairwise_map] at houtputs

theorem reports_of_delivery (h : loaded o t = .ok (s, r)) (hfits : fits room text = .ok ())
    (hdelivery : Delivery room t text (o.targets r s) a done cut out.files) (hends : out.Ends a)
    (houtput : out.stdout = printed room (text ++ announced done)) :
    ∃ rest, o.targets r s = done ++ rest ∧ Reports t room text done cut rest out := by
  obtain ⟨bytes, hread⟩ := exists_read_of_loaded h
  obtain ⟨rest, hrest, hending⟩ := hdelivery.exists_rest hfits
  refine ⟨rest, hrest, ?_⟩
  constructor
  case output => rw [houtput, printed, List.toList_toArray]
  case written => exact fun before f later path => hdelivery.content_of_done
  case plain =>
    intro hplain f hf
    obtain ⟨before, later, hdone⟩ := List.append_of_mem hf
    have hwritable := hdelivery.writable_of_done f hf
    refine hdelivery.content_of_done hdone hwritable.samePlace fun g hg => ?_
    have hpairwise := pairwise_targets (hplain.apart hread) r s
    rw [hrest, hdone, List.append_assoc, List.pairwise_append, List.cons_append,
      List.pairwise_cons] at hpairwise
    refine hpairwise.2.1.1 g ?_ hwritable
    obtain hg | hg := List.mem_append.mp hg
    · exact List.mem_append_left rest hg
    · exact List.mem_append_right later (hending.subset hg)
  case elsewhere => exact fun path => hdelivery.seen_eq
  case ends => exact .inr ⟨hfits, a, hending, hends⟩

theorem effects_of_delivery (h : loaded o t = .ok (s, r))
    (hfits : fits room (Console.text r s) = .ok ())
    (hdelivery : Delivery room t (Console.text r s) (o.targets r s) a done cut out.files)
    (hends : out.Ends a)
    (houtput : out.stdout = printed room (Console.text r s ++ announced done)) :
    Effects o t room out := by
  obtain ⟨bytes, hread⟩ := exists_read_of_loaded h
  obtain ⟨rest, hrest, hreports⟩ := reports_of_delivery h hfits hdelivery hends houtput
  have helsewhere : ∀ path, (∀ p ∈ o.outputs, ¬ t.SamePlace p path) →
      out.files.seen path = t.seen path := by
    intro path hpath
    rw [← Options.map_path_targets o r s, List.forall_mem_map] at hpath
    exact hdelivery.seen_eq fun f hf => hpath f (hdelivery.opened_subset hfits hf)
  have hinput : (∀ p ∈ o.outputs, ¬ t.SamePlace p o.input) →
      ∀ bytes, out.files.read o.input = .ok bytes ↔ t.read o.input = .ok bytes := by
    intro hpath bytes
    rw [read_eq_ok_iff, read_eq_ok_iff, helsewhere o.input hpath]
  constructor
  case aborts =>
    intro e he
    cases h.symm.trans he
  case reports =>
    intro s' r' hr
    obtain ⟨rfl, rfl⟩ := Prod.mk.inj (Except.ok.inj (h.symm.trans hr))
    exact ⟨done, cut, rest, hrest, hreports⟩
  case elsewhere => exact helsewhere
  case samePlace_iff => exact hdelivery.samePlace_iff
  case input => exact hinput
  case plain => exact fun hplain => hinput (hplain.apart hread).input
  case succeeds_iff =>
    rw [hends.status_eq_zero_iff, hdelivery.eq_ok_iff hfits, ← Options.map_path_targets o r s,
      List.forall_mem_map]
    constructor
    · exact fun hall => ⟨s, r, h, hall⟩
    · rintro ⟨s', r', hr, hall⟩
      obtain ⟨rfl, rfl⟩ := Prod.mk.inj (Except.ok.inj (h.symm.trans hr))
      exact hall

theorem effects_of_console {fault : Fault} (h : loaded o t = .ok (s, r))
    (hfits : fits room (Console.text r s) = .error fault)
    (hends : out.Ends (.error (.failure (.console fault)))) (hfiles : out.files = t)
    (houtput : out.stdout = printed room (Console.text r s)) : Effects o t room out := by
  constructor
  case aborts =>
    intro e he
    cases h.symm.trans he
  case reports =>
    intro s' r' hr
    obtain ⟨rfl, rfl⟩ := Prod.mk.inj (Except.ok.inj (h.symm.trans hr))
    refine ⟨[], [], o.targets r s, rfl, ?_⟩
    constructor
    case output => rw [houtput, announced_nil, String.append_empty, printed, List.toList_toArray]
    case written => simp
    case plain => exact fun _ => List.forall_mem_nil _
    case elsewhere => simp [hfiles]
    case ends => exact .inl ⟨fault, hfits, rfl, rfl, hends⟩
  case succeeds_iff =>
    rw [hends.status_eq_zero_iff]
    constructor
    · rintro ⟨⟩
    · rintro ⟨s', r', hr, -, -, hall⟩
      obtain ⟨rfl, rfl⟩ := Prod.mk.inj (Except.ok.inj (h.symm.trans hr))
      rw [fits_append_error hfits] at hall
      cases hall
  all_goals simp [hfiles]

theorem conclude_of_yields (h : Yields room (run o) t "" a t' text)
    (shows : Log.Record → Bool) : ∃ out,
      conclude shows (execute o { files := t, stdout := { limit := room } }) = out ∧
        out.Ends a ∧ out.stdout = printed room text ∧ out.files = t' := by
  obtain ⟨log, hrun⟩ := h [_]
  have hexecute : execute o { files := t, stdout := { limit := room } } =
      (a, ⟨t', printed room text, log⟩) := by
    rw [printed_empty] at hrun
    exact hrun
  rw [hexecute]
  refine ⟨_, rfl, ?_⟩
  rcases a with (e | fault) | ⟨⟨⟩⟩
  · exact ⟨⟨rfl, rfl⟩, rfl, rfl⟩
  · exact ⟨⟨rfl, rfl⟩, rfl, rfl⟩
  · exact ⟨⟨rfl, rfl⟩, rfl, rfl⟩

theorem effects_execute (o : Options) (t : FileTree) (room : Option Limit)
    (shows : Log.Record → Bool) : Effects o t room
      (conclude shows (execute o { files := t, stdout := { limit := room } })) := by
  cases h : loaded o t with
  | error e =>
    obtain ⟨out, rfl, hends, houtput, hfiles⟩ := conclude_of_yields (run_of_error h) shows
    refine effects_of_aborts h ⟨hends, ?_, hfiles⟩
    rw [houtput, printed_empty]
  | ok sr =>
    obtain ⟨s, r⟩ := sr
    obtain ⟨fault, hfits, hyields⟩ | ⟨hfits, a, done, cut, t', hdelivery, hyields⟩ := run_of_ok h
    · obtain ⟨out, rfl, hends, houtput, hfiles⟩ := conclude_of_yields hyields shows
      exact effects_of_console h hfits hends hfiles houtput
    · obtain ⟨out, rfl, hends, houtput, rfl⟩ := conclude_of_yields hyields shows
      exact effects_of_delivery h hfits hdelivery hends houtput

def pointFile : List UInt8 := Utf8.encode
  "\x7b\"type\":\"Point\",\"metric\":\"vus\",\"data\":\x7b\"value\":10\x7d\x7d\n"

/-- A results file with a table beside it from an earlier run, and with a directory in the place of
the page. -/
def staleFiles : FileTree where
  inodes :=
    [ { object := .directory 0 [("work", 1)] },
      { object := .directory 0 [("results.json", 2), ("results.csv", 3), ("results.html", 4)] },
      { object := .file pointFile },
      { object := .file (Utf8.encode "timestamp\n") },
      { object := .directory 1 [] } ]

theorem plain_staleFiles : staleFiles.Plain := by
  constructor
  case unlinked =>
    rintro (_ | _ | _ | _ | _ | n) <;> rfl
  case nodup =>
    rintro (_ | _ | _ | _ | _ | n) above names h <;> cases h <;> decide
  case above =>
    rintro (_ | _ | _ | _ | _ | n) above names h <;> cases h <;> exact ⟨_, _, _, rfl, rfl⟩

/-- A results file that only declares a metric. -/
def declarationFile : List UInt8 := Utf8.encode
  "\x7b\"type\":\"Metric\",\"metric\":\"vus\",\"data\":\x7b\x7d\x7d\n"

/-- A results file to which the name of the table is a link. -/
def linkedFiles : FileTree where
  inodes :=
    [ { object := .directory 0 [("work", 1)] },
      { object := .directory 0 [("results.json", 2), ("results.csv", 3)] },
      { object := .file declarationFile },
      { object := .link "results.json" } ]

end Program

end LoadReport
