import Std.Data.HashMap

/-! # Metric points and their series

The points of one metric form a series. The series of a set stand in the order in which their
metrics were first pushed.
-/

namespace LoadReport

/-- One observation of a metric. Tags are kept in ascending order of their keys. -/
structure Point where
  value : Float
  time : Option String
  tags : List (String × String)
  deriving DecidableEq

def Point.tag? (p : Point) (key : String) : Option String := p.tags.lookup key

structure Series where
  name : String
  points : Array Point
  deriving DecidableEq

def Series.values (s : Series) : List Float := s.points.toList.map (·.value)

/-- Series with the position of each by the name of its metric. -/
structure MetricSet where
  series : Array Series
  position : Std.HashMap String Nat

namespace MetricSet

def empty : MetricSet := ⟨#[], ∅⟩

instance : EmptyCollection MetricSet := ⟨empty⟩

/-- Adds a point at the end of its series, which is begun if there is none. -/
def push (m : MetricSet) (name : String) (p : Point) : MetricSet :=
  match m.position[name]? with
  | some i => { m with series := m.series.modify i fun s => { s with points := s.points.push p } }
  | none =>
    { series := m.series.push ⟨name, #[p]⟩
      position := m.position.insert name m.series.size }

def get? (m : MetricSet) (name : String) : Option Series :=
  m.position[name]?.bind (m.series[·]?)

def points (m : MetricSet) (name : String) : List Point :=
  ((m.get? name).map (·.points.toList)).getD []

def values (m : MetricSet) (name : String) : List Float :=
  (m.points name).map (·.value)

def toList (m : MetricSet) : List Series := m.series.toList

def size (m : MetricSet) : Nat := m.series.size

def isEmpty (m : MetricSet) : Bool := m.series.isEmpty

def totalPoints (m : MetricSet) : Nat := m.series.foldl (fun n s => n + s.points.size) 0

end MetricSet

end LoadReport
