import LoadReport.Proofs.FileTree.Writing
import LoadReport.Proofs.Loading
import LoadReport.Proofs.Toml.ArraysOfTables

/-! # Merging settings with their defaults

Every field of the settings is looked up in its section of the document, and one that is not there
keeps its default. Other fields, unknown keys and the form of the section are of no consequence.
-/

namespace LoadReport.Settings

open Toml (Value Entries)

inductive Field
  | duration
  | waiting
  | requests
  | failed
  | errors
  | scenario
  | product
  | title
  deriving DecidableEq

namespace Field

def header : Field → String
  | duration | waiting | requests | failed | errors => "metrics"
  | scenario | product => "tags"
  | title => "report"

def name : Field → String
  | duration => "duration"
  | waiting => "waiting"
  | requests => "requests"
  | failed => "failed"
  | errors => "errors"
  | scenario => "scenario"
  | product => "product"
  | title => "title"

/-- The place of a field in its section. -/
def place : Field → ℕ
  | duration | scenario | title => 0
  | waiting | product => 1
  | requests => 2
  | failed => 3
  | errors => 4

def get (s : Settings) : Field → String
  | duration => s.metrics.duration
  | waiting => s.metrics.waiting
  | requests => s.metrics.requests
  | failed => s.metrics.failed
  | errors => s.metrics.errors
  | scenario => s.tags.scenario
  | product => s.tags.product
  | title => s.title

/-- What a section has for a field: a table by its name, an array by its place. -/
def valueIn? (f : Field) : Value → Option Value
  | .table _ es => es.lookup f.name
  | .array items => items[f.place]?
  | .tables ts => ts[f.place]?.map (.table .header)
  | _ => none

def value? (es : Entries) (f : Field) : Option Value := (es.lookup f.header).bind f.valueIn?

end Field

def text? : Value → Option String
  | .string s => some s
  | _ => none

/-- Not there, or a string. -/
def IsText (o : Option Value) : Prop := ∀ v, o = some v → ∃ s, v = .string s

/-- A table, or an array of any values. -/
inductive IsSection : Value → Prop
  | table (origin : Toml.Origin) (es : Entries) : IsSection (.table origin es)
  | array (items : List Value) : IsSection (.array items)
  | tables (ts : List Entries) : IsSection (.tables ts)

/-- A document whose sections are tables or arrays with strings for the fields. -/
structure Fits (es : Entries) : Prop where
  sections : ∀ (f : Field) v, es.lookup f.header = some v → IsSection v
  fields : ∀ f : Field, IsText (f.value? es)

/-- None of the sections is a date. -/
def DateFree (es : Entries) : Prop := ∀ (f : Field) d, es.lookup f.header ≠ some (.dateTime d)

/-- The settings of a document: its texts, and defaults where it has none. -/
def merged (es : Entries) : Settings :=
  let d : Settings := {}
  let chosen (f : Field) : String := ((f.value? es).bind text?).getD (f.get d)
  { metrics :=
      { duration := chosen .duration
        waiting := chosen .waiting
        requests := chosen .requests
        failed := chosen .failed
        errors := chosen .errors }
    tags :=
      { scenario := chosen .scenario
        product := chosen .product }
    title := chosen .title }

theorem get_merged (f : Field) (es : Entries) :
    f.get (merged es) = ((f.value? es).bind text?).getD (f.get {}) := by
  cases f <;> rfl

variable {o : Option Value} {t : Option String} {ts : List (Option String)} {es : Entries}
  {fields : List Field} {s : Settings}

/-! ## Sections -/

theorem field?_eq_some_iff : field? o = some t ↔ IsText o ∧ t = o.bind text? := by
  unfold field?
  split
  · simp [IsText, eq_comm]
  · simp [IsText, text?, eq_comm]
  next v hv =>
    constructor
    · rintro ⟨⟩
    · rintro ⟨h, -⟩
      obtain ⟨s, rfl⟩ := h v rfl
      exact absurd rfl (hv s)

theorem mapM_field?_eq_some_iff {α : Type} {l : List α} {g : α → Option Value} :
    l.mapM (fun x => field? (g x)) = some ts ↔
      (∀ x ∈ l, IsText (g x)) ∧ ts = l.map fun x => (g x).bind text? := by
  induction l generalizing ts with
  | nil => simp [eq_comm]
  | cons x l ih =>
    rw [List.mapM_cons, List.forall_mem_cons]
    simp only [Option.bind_eq_bind, Option.bind_eq_some_iff, field?_eq_some_iff, ih]
    constructor
    · rintro ⟨t, ⟨hx, rfl⟩, ts, ⟨hl, rfl⟩, ⟨⟩⟩
      exact ⟨⟨hx, hl⟩, rfl⟩
    · rintro ⟨⟨hx, hl⟩, rfl⟩
      exact ⟨_, ⟨hx, rfl⟩, _, ⟨hl, rfl⟩, rfl⟩

/-- The fields of a section, each at its place. -/
structure Lists (header : String) (fields : List Field) : Prop where
  mem_iff : ∀ f, f ∈ fields ↔ f.header = header
  order : fields.zipIdx = fields.map fun f => (f, f.place)

variable {header : String} {f : Field}

theorem section?_table (fields : List Field) (origin : Toml.Origin) (es : Entries) :
    Settings.section? (fields.map Field.name) (some (.table origin es)) =
      fields.mapM fun f => field? (f.valueIn? (.table origin es)) := by
  rw [section?, List.mapM_map]
  rfl

theorem section?_array (h : Lists header fields) (items : List Value) :
    Settings.section? (fields.map Field.name) (some (.array items)) =
      fields.mapM fun f => field? (f.valueIn? (.array items)) := by
  rw [section?, List.zipIdx_map, h.order, List.map_map, List.mapM_map]
  rfl

/-- The first field of an array of tables is a table. -/
theorem not_isText_tables {tables : List Entries} (h : Lists header (f :: fields))
    (htables : tables ≠ []) : ¬ IsText (f.valueIn? (.tables tables)) := by
  have hplace : f.place = 0 := by
    obtain ⟨hfirst, -⟩ := List.cons.inj h.order
    exact (Prod.mk.inj hfirst).2.symm
  intro htext
  obtain ⟨es, rest, rfl⟩ := List.exists_cons_of_ne_nil htables
  rw [Field.valueIn?, hplace] at htext
  obtain ⟨s, hs⟩ := htext _ rfl
  cases hs

/-- A section that can be read is a table or an array with strings for the fields. -/
theorem Lists.section?_eq_some_iff (h : Lists header (f :: fields)) (hdate : DateFree es)
    (hfilled : es.Filled) :
    Settings.section? ((f :: fields).map Field.name) (es.lookup header) = some ts ↔
      ((∀ v, es.lookup header = some v → IsSection v) ∧
        ∀ g ∈ f :: fields, IsText ((es.lookup header).bind g.valueIn?)) ∧
        ts = (f :: fields).map fun g => ((es.lookup header).bind g.valueIn?).bind text? := by
  obtain rfl : f.header = header := (h.mem_iff f).mp List.mem_cons_self
  have hdate : ∀ d, es.lookup f.header ≠ some (.dateTime d) := hdate f
  have hfilled : ∀ v, es.lookup f.header = some v → v.Filled := fun v => hfilled.lookup
  cases ho : es.lookup f.header with
  | none => simp [section?, IsText, Function.comp_def, eq_comm]
  | some v =>
    simp only [ho, Option.some.injEq, forall_eq', Option.bind_some] at hfilled ⊢
    cases v with
    | table origin es =>
      rw [section?_table, mapM_field?_eq_some_iff, and_iff_right (IsSection.table origin es)]
    | array items =>
      rw [section?_array h, mapM_field?_eq_some_iff, and_iff_right (IsSection.array items)]
    | tables tables =>
      constructor
      · rintro ⟨⟩
      · rintro ⟨⟨-, htext⟩, -⟩
        exact absurd (htext f List.mem_cons_self) (not_isText_tables h hfilled)
    | dateTime d => exact absurd ho (hdate d)
    | string | integer | float | boolean =>
      constructor
      · rintro ⟨⟩
      · rintro ⟨⟨⟨⟩, -⟩, -⟩

/-! ## Documents -/

theorem lists_metrics : Lists "metrics" [.duration, .waiting, .requests, .failed, .errors] where
  mem_iff f := by cases f <;> decide
  order := rfl

theorem lists_tags : Lists "tags" [.scenario, .product] where
  mem_iff f := by cases f <;> decide
  order := rfl

theorem lists_report : Lists "report" [.title] where
  mem_iff f := by cases f <;> decide
  order := rfl

theorem Fits.of_lists (hfits : Fits es) (h : Lists header (f :: fields)) :
    (∀ v, es.lookup header = some v → IsSection v) ∧
      ∀ g ∈ f :: fields, IsText ((es.lookup header).bind g.valueIn?) := by
  constructor
  · obtain rfl : f.header = header := (h.mem_iff f).mp List.mem_cons_self
    exact hfits.sections f
  · intro g hg
    obtain rfl : g.header = header := (h.mem_iff g).mp hg
    exact hfits.fields g

theorem ofEntries?_eq_some_iff (hdate : DateFree es) (hfilled : es.Filled) :
    ofEntries? es = some s ↔ Fits es ∧ s = merged es := by
  constructor
  · intro h
    obtain ⟨_, hm, h⟩ := Option.bind_eq_some_iff.mp h
    obtain ⟨_, ht, h⟩ := Option.bind_eq_some_iff.mp h
    obtain ⟨_, hr, h⟩ := Option.bind_eq_some_iff.mp h
    obtain ⟨⟨hmetrics, hmetric⟩, rfl⟩ := (lists_metrics.section?_eq_some_iff hdate hfilled).mp hm
    obtain ⟨⟨htags, htag⟩, rfl⟩ := (lists_tags.section?_eq_some_iff hdate hfilled).mp ht
    obtain ⟨⟨hreport, htitle⟩, rfl⟩ := (lists_report.section?_eq_some_iff hdate hfilled).mp hr
    cases h
    refine ⟨⟨fun f => ?_, fun f => ?_⟩, rfl⟩
    · cases f with
      | duration | waiting | requests | failed | errors => exact hmetrics
      | scenario | product => exact htags
      | title => exact hreport
    · cases f with
      | duration | waiting | requests | failed | errors =>
        exact hmetric _ ((lists_metrics.mem_iff _).mpr rfl)
      | scenario | product => exact htag _ ((lists_tags.mem_iff _).mpr rfl)
      | title => exact htitle _ ((lists_report.mem_iff _).mpr rfl)
  · rintro ⟨hfits, rfl⟩
    have hmetrics := (lists_metrics.section?_eq_some_iff hdate hfilled).mpr
      ⟨hfits.of_lists lists_metrics, rfl⟩
    have htags := (lists_tags.section?_eq_some_iff hdate hfilled).mpr
      ⟨hfits.of_lists lists_tags, rfl⟩
    have hreport := (lists_report.section?_eq_some_iff hdate hfilled).mpr
      ⟨hfits.of_lists lists_report, rfl⟩
    exact Option.bind_eq_some_iff.mpr ⟨_, hmetrics,
      Option.bind_eq_some_iff.mpr ⟨_, htags, Option.bind_eq_some_iff.mpr ⟨_, hreport, rfl⟩⟩⟩

example : parse? "metrics = ['grpc']\n[tags]\nregion = 7\nproduct = 'sku'".toList =
    some { metrics := { duration := "grpc" }, tags := { product := "sku" } } := by decide

/-! ## Files -/

variable {path : Option String} {files : FileTree} {text : List Char} {fault : Fault}

theorem loaded_eq_ok_iff (htext : files.readText (path.getD defaultPath) = .ok text)
    (hes : Toml.Document.parse? text = some es) (hdate : DateFree es) :
    loaded path files = .ok s ↔ Fits es ∧ s = merged es := by
  rw [← ofEntries?_eq_some_iff hdate (Toml.Document.filled_parse? hes)]
  have hparse : parse? text = ofEntries? es := by
    rw [parse?, hes]
    rfl
  simp only [loaded, htext, hparse]
  cases ofEntries? es with
  | none => exact iff_of_false nofun nofun
  | some s' => simp

theorem loaded_of_missing (hpath : path = none)
    (hmissing : files.stat defaultPath = .error .notFound) : loaded path files = .ok {} := by
  subst hpath
  have hread := FileTree.readText_eq_notFound_iff.mpr hmissing
  simp [loaded, hread]

theorem loaded_of_error (hread : files.readText (path.getD defaultPath) = .error fault)
    (hthere : ¬ (path = none ∧ files.stat defaultPath = .error .notFound)) :
    loaded path files = .error (.read (path.getD defaultPath) fault) := by
  simp only [loaded, hread]
  split
  next heq =>
    cases heq
    refine if_neg fun hpath => hthere ⟨hpath, ?_⟩
    subst hpath
    exact FileTree.readText_eq_notFound_iff.mp hread
  next heq =>
    cases heq
    rfl
  next heq => cases heq

/-- What is loaded. A document gives settings just if it fits, and they are its texts with defaults
where it has none. A file that cannot be read is a failure, unless none is given and the default one
is not there. -/
structure Merges (path : Option String) (files : FileTree) : Prop where
  succeeds_iff : ∀ text es, files.readText (path.getD defaultPath) = .ok text →
    Toml.Document.parse? text = some es → DateFree es →
      ((∃ s, (load path).result files = .ok s) ↔ Fits es)
  get_eq : ∀ text es s, files.readText (path.getD defaultPath) = .ok text →
    Toml.Document.parse? text = some es → DateFree es → (load path).result files = .ok s →
      ∀ f : Field, f.get s = ((f.value? es).bind text?).getD (f.get {})
  defaults_iff : ∀ fault, files.readText (path.getD defaultPath) = .error fault →
    ((load path).result files = .ok {} ↔ path = none ∧ files.stat defaultPath = .error .notFound)
  failure : ∀ fault, files.readText (path.getD defaultPath) = .error fault →
    ¬ (path = none ∧ files.stat defaultPath = .error .notFound) →
      (load path).result files = .error (.read (path.getD defaultPath) fault)

theorem merges_load (path : Option String) (files : FileTree) : Merges path files := by
  have hload : (load path).result files = loaded path files :=
    congrFun (answers_load path).result_eq files
  constructor
  all_goals simp only [hload]
  case succeeds_iff =>
    intro text es htext hes hdate
    simp only [loaded_eq_ok_iff htext hes hdate, exists_and_left, exists_eq, and_true]
  case get_eq =>
    intro text es s htext hes hdate hs f
    obtain ⟨-, rfl⟩ := (loaded_eq_ok_iff htext hes hdate).mp hs
    exact get_merged f es
  case defaults_iff =>
    intro fault hread
    constructor
    · intro hdefaults
      by_contra hthere
      rw [loaded_of_error hread hthere] at hdefaults
      cases hdefaults
    · rintro ⟨hpath, hmissing⟩
      exact loaded_of_missing hpath hmissing
  case failure =>
    intro fault hread hthere
    exact loaded_of_error hread hthere

/-- A settings file with an array for one section, a part of another one, and unknown keys. -/
def partialText : String := "metrics = ['grpc']\nunknown = 1\n[tags]\nregion = 7\nproduct = 'sku'\n"

def partialEntries : Entries :=
  [ ("metrics", .array [.string "grpc"]),
    ("unknown", .integer 1),
    ("tags", .table .header [("region", .integer 7), ("product", .string "sku")]) ]

def partialFiles : FileTree where
  inodes :=
    [ { object := .directory 0 [("work", 1)] },
      { object := .directory 0 [("analyze.toml", 2)] },
      { object := .file (Utf8.encode partialText) } ]

theorem fits_partialEntries : Fits partialEntries := by
  constructor
  case sections =>
    intro f v hv
    cases f <;> cases hv <;> constructor
  case fields =>
    intro f v hv
    cases f <;> cases hv <;> exact ⟨_, rfl⟩

theorem merges_load_partialFiles :
    ∃ s, (load none).result partialFiles = .ok s ∧ s.metrics.duration = "grpc" ∧
      s.tags.product = "sku" ∧
      ∀ f : Field, f ≠ .duration → f ≠ .product → f.get s = f.get {} := by
  have h := merges_load none partialFiles
  have htext : partialFiles.readText defaultPath = .ok partialText.toList := by decide +kernel
  have hes : Toml.Document.parse? partialText.toList = some partialEntries := rfl
  have hdate : DateFree partialEntries := by
    intro f d hd
    cases f <;> cases hd
  obtain ⟨s, hs⟩ := (h.succeeds_iff _ _ htext hes hdate).mpr fits_partialEntries
  have hget := h.get_eq _ _ s htext hes hdate hs
  refine ⟨s, hs, hget .duration, hget .product, ?_⟩
  intro f hduration hproduct
  rw [hget]
  cases f with
  | duration => exact absurd rfl hduration
  | product => exact absurd rfl hproduct
  | waiting | requests | failed | errors | scenario | title => rfl

end LoadReport.Settings
