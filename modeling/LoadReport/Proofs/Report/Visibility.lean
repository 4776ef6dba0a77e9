import LoadReport.Proofs.Run.Reordering
import LoadReport.Report.Console
import LoadReport.Report.Html

/-! # What the reports see

Both reports on a results file are made of the points of five metrics, since the groups are made of
duration points as well. So lines of other metrics leave no trace in them, and lines of different
metrics may pass each other.
-/

namespace LoadReport

def MetricNames.toList (names : MetricNames) : List String :=
  [names.duration, names.waiting, names.requests, names.failed, names.errors]

namespace Run

variable {s : Settings} {r r' : Run} {l l' : List UInt8} {ls ls' : List (List UInt8)}
  {names : List String} {metric : String}

/-- Two runs that look the same to the reports. -/
structure Alike (s : Settings) (r r' : Run) : Prop where
  points : ∀ metric ∈ s.metrics.toList, r.metrics.points metric = r'.metrics.points metric
  scenarios : r.scenarios = r'.scenarios
  products : r.products = r'.products

theorem Alike.values (h : Alike s r r') :
    ∀ metric ∈ s.metrics.toList, r.metrics.values metric = r'.metrics.values metric := by
  intro metric hm
  rw [MetricSet.values, MetricSet.values, h.points metric hm]

theorem alike_ofBytes {a b : List UInt8} (h : ∀ metric ∈ s.metrics.toList,
    (ofBytes s a).metrics.points metric = (ofBytes s b).metrics.points metric) :
    Alike s (ofBytes s a) (ofBytes s b) := by
  have hduration := h s.metrics.duration (by simp [MetricNames.toList])
  constructor
  case points => exact h
  case scenarios => rw [scenarios_ofBytes, scenarios_ofBytes, hduration]
  case products => rw [products_ofBytes, products_ofBytes, hduration]

/-- The second lines are the first after lines without a point of the given metrics have been put in
or taken out, and lines without a metric in common have passed each other. -/
inductive Shuffled (names : List String) : List (List UInt8) → List (List UInt8) → Prop where
  | refl (ls : List (List UInt8)) : Shuffled names ls ls
  | cons (l : List UInt8) {ls ls' : List (List UInt8)} (h : Shuffled names ls ls') :
    Shuffled names (l :: ls) (l :: ls')
  | swap {l l' : List UInt8} (ls : List (List UInt8))
    (h : ∀ o ∈ observations l, ∀ o' ∈ observations l', o.metric ≠ o'.metric) :
    Shuffled names (l :: l' :: ls) (l' :: l :: ls)
  | insert {l : List UInt8} (ls : List (List UInt8)) (h : ∀ o ∈ observations l, o.metric ∉ names) :
    Shuffled names ls (l :: ls)
  | remove {l : List UInt8} (ls : List (List UInt8)) (h : ∀ o ∈ observations l, o.metric ∉ names) :
    Shuffled names (l :: ls) ls
  | trans {ls ls' ls'' : List (List UInt8)} (h : Shuffled names ls ls')
    (h' : Shuffled names ls' ls'') : Shuffled names ls ls''

theorem pointsOf_eq_nil {os : List Observation} (h : ∀ o ∈ os, o.metric ≠ metric) :
    pointsOf metric os = [] := by
  rw [pointsOf, List.map_eq_nil_iff, List.filter_eq_nil_iff]
  intro o ho
  simpa using h o ho

theorem pointsOf_swap {os os' : List Observation}
    (h : ∀ o ∈ os, ∀ o' ∈ os', o.metric ≠ o'.metric) :
    pointsOf metric os ++ pointsOf metric os' = pointsOf metric os' ++ pointsOf metric os := by
  by_cases hos : ∃ o ∈ os, o.metric = metric
  · obtain ⟨o, ho, rfl⟩ := hos
    have hnil : pointsOf o.metric os' = [] :=
      pointsOf_eq_nil fun o' ho' he => h o ho o' ho' he.symm
    rw [hnil, List.append_nil, List.nil_append]
  · have hnil : pointsOf metric os = [] := pointsOf_eq_nil fun o ho he => hos ⟨o, ho, he⟩
    rw [hnil, List.append_nil, List.nil_append]

theorem Shuffled.pointsOf_eq (h : Shuffled names ls ls') (hm : metric ∈ names) :
    pointsOf metric (ls.flatMap observations) = pointsOf metric (ls'.flatMap observations) := by
  have hunseen : ∀ {l}, (∀ o ∈ observations l, o.metric ∉ names) →
      pointsOf metric (observations l) = [] := by
    intro l hl
    refine pointsOf_eq_nil fun o ho he => hl o ho ?_
    rwa [he]
  induction h with
  | refl => rfl
  | cons l _ ih => rw [List.flatMap_cons, List.flatMap_cons, pointsOf_append, pointsOf_append, ih]
  | swap ls hl =>
    simp only [List.flatMap_cons, pointsOf_append, ← List.append_assoc]
    rw [pointsOf_swap hl]
  | insert ls hl => rw [List.flatMap_cons, pointsOf_append, hunseen hl, List.nil_append]
  | remove ls hl => rw [List.flatMap_cons, pointsOf_append, hunseen hl, List.nil_append]
  | trans _ _ ih ih' => exact ih.trans ih'

theorem Shuffled.points_eq (h : Shuffled names ls ls') (hm : metric ∈ names) :
    (ofBytes s (unlines ls)).metrics.points metric =
      (ofBytes s (unlines ls')).metrics.points metric := by
  rw [points_ofBytes, points_ofBytes, observations_unlines, observations_unlines, h.pointsOf_eq hm]

end Run

namespace Report

open Run (Alike)

variable {s : Settings} {r r' : Run}

theorem summary_eq_of_alike (h : Alike s r r') : Summary.of r s = Summary.of r' s := by
  have htimes : Summary.times r s = Summary.times r' s := by
    rw [Summary.times, Summary.times, h.points _ (by simp [MetricNames.toList])]
  have hrequests := h.points s.metrics.requests (by simp [MetricNames.toList])
  have hfailed := h.points s.metrics.failed (by simp [MetricNames.toList])
  have herrors := h.points s.metrics.errors (by simp [MetricNames.toList])
  rw [Summary.of, Summary.of, htimes, hrequests, hfailed, herrors]

theorem Console.text_eq_of_alike (h : Alike s r r') : text r s = text r' s := by
  have hduration := h.values s.metrics.duration (by simp [MetricNames.toList])
  have hwaiting := h.values s.metrics.waiting (by simp [MetricNames.toList])
  simp only [text, pieces, lines, summary_eq_of_alike h, hduration, hwaiting, h.scenarios,
    h.products]

theorem Html.text_eq_of_alike (h : Alike s r r') : text r s = text r' s := by
  have hduration := h.values s.metrics.duration (by simp [MetricNames.toList])
  have hrequests := h.points s.metrics.requests (by simp [MetricNames.toList])
  simp only [text, lines, opening, headlines, hduration, hrequests, h.scenarios]

def texts (s : Settings) (bytes : List UInt8) : String × String :=
  (Console.text (Run.ofBytes s bytes) s, Html.text (Run.ofBytes s bytes) s)

theorem texts_eq_of_points (s : Settings) {a b : List UInt8} (h : ∀ metric ∈ s.metrics.toList,
    (Run.ofBytes s a).metrics.points metric = (Run.ofBytes s b).metrics.points metric) :
    texts s a = texts s b := by
  have halike := Run.alike_ofBytes h
  rw [texts, texts, Console.text_eq_of_alike halike, Html.text_eq_of_alike halike]

/-- Both reports on a results file depend on the points of five metrics alone. Hence lines of other
metrics can be put in and taken out, and lines of different metrics can pass each other. -/
theorem texts_eq_of_visible (s : Settings) :
    (∀ a b, (∀ metric ∈ s.metrics.toList,
        (Run.ofBytes s a).metrics.points metric = (Run.ofBytes s b).metrics.points metric) →
      texts s a = texts s b) ∧
      ∀ ls ls', Run.Shuffled s.metrics.toList ls ls' →
        texts s (Run.unlines ls) = texts s (Run.unlines ls') := by
  constructor
  · intro a b h
    exact texts_eq_of_points s h
  · intro ls ls' h
    exact texts_eq_of_points s fun _ hm => h.points_eq hm

def checkoutLine : List UInt8 := Utf8.encode
  ("\x7b\"type\":\"Point\",\"metric\":\"http_req_duration\",\"data\":\x7b\"value\":80.5," ++
    "\"tags\":\x7b\"scenario\":\"checkout\",\"productId\":\"7\"\x7d\x7d\x7d")

def requestLine : List UInt8 := Utf8.encode
  ("\x7b\"type\":\"Point\",\"metric\":\"http_reqs\",\"data\":\x7b\"value\":1," ++
    "\"tags\":\x7b\"scenario\":\"browse\"\x7d\x7d\x7d")

/-- A line of another metric, with tags of both kinds. -/
def usersLine : List UInt8 := Utf8.encode
  ("\x7b\"type\":\"Point\",\"metric\":\"vus\",\"data\":\x7b\"value\":3," ++
    "\"tags\":\x7b\"scenario\":\"browse\",\"productId\":\"9\"\x7d\x7d\x7d")

/-- Without the users, and with the request in front. -/
theorem texts_eq_of_visible_checkout :
    (∀ metric ∈ MetricNames.toList {},
        (Run.ofBytes {} (Run.unlines [usersLine, checkoutLine, requestLine])).metrics.points metric =
          (Run.ofBytes {} (Run.unlines [requestLine, checkoutLine])).metrics.points metric) ∧
      texts {} (Run.unlines [usersLine, checkoutLine, requestLine]) =
        texts {} (Run.unlines [requestLine, checkoutLine]) ∧
      Run.Shuffled (MetricNames.toList {}) [usersLine, checkoutLine, requestLine]
        [requestLine, checkoutLine] ∧
      texts {} (Run.unlines [usersLine, checkoutLine, requestLine]) =
        texts {} (Run.unlines [requestLine, checkoutLine]) := by
  have hpoints : ∀ metric ∈ MetricNames.toList {},
      (Run.ofBytes {} (Run.unlines [usersLine, checkoutLine, requestLine])).metrics.points metric =
        (Run.ofBytes {} (Run.unlines [requestLine, checkoutLine])).metrics.points metric := by
    simp only [Run.points_ofBytes]
    decide +kernel
  have husers : ∀ o ∈ Run.observations usersLine, o.metric ∉ MetricNames.toList {} := by
    decide +kernel
  have hapart : ∀ o ∈ Run.observations checkoutLine, ∀ o' ∈ Run.observations requestLine,
      o.metric ≠ o'.metric := by decide +kernel
  have hshuffled : Run.Shuffled (MetricNames.toList {}) [usersLine, checkoutLine, requestLine]
      [requestLine, checkoutLine] := .trans (.remove _ husers) (.swap _ hapart)
  obtain ⟨hsame, hlines⟩ := texts_eq_of_visible {}
  exact ⟨hpoints, hsame _ _ hpoints, hshuffled, hlines _ _ hshuffled⟩

end Report

end LoadReport
