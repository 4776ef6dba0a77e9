import Std.Data.TreeMap

/-! # Durations by tag

A group holds the request durations that share one value of a tag. Groups are kept in ascending
order of that value, and each remembers its place in the order of first appearance.
-/

namespace LoadReport

structure Group where
  durations : Array Float
  count : Nat
  /-- How many groups there were before this one. -/
  firstSeen : Nat
  deriving DecidableEq

def Group.push (g : Group) (duration : Float) : Group :=
  { g with durations := g.durations.push duration, count := g.count + 1 }

/-- Groups by the value of the tag. Strings are ordered by code points, which is the order of their
UTF-8 bytes. -/
abbrev GroupTable := Std.TreeMap String Group

def GroupTable.record (t : GroupTable) (key : String) (duration : Float) : GroupTable :=
  t.insert key ((t.getD key ⟨#[], 0, t.size⟩).push duration)

end LoadReport
