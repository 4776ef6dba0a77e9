/-! # Statistics of samples

Samples are sorted by a total order on floats. A percentile is one of the samples: the one whose
rank is the given part of their number, rounded down and capped at the last rank.
-/

namespace LoadReport

namespace Sample

/-- The bit pattern with its sign flipped if positive and all bits flipped if negative. Its order as
a natural number is the order of numbers, with −0 below 0 and NaN above all. -/
def rank (x : Float) : UInt64 :=
  if x.toBits < 0x8000000000000000 then x.toBits + 0x8000000000000000 else ~~~x.toBits

def le (x y : Float) : Bool := rank x ≤ rank y

def sort (xs : List Float) : List Float := xs.mergeSort le

/-- From left to right, beginning with −0, which is neutral. -/
def sum (xs : List Float) : Float := xs.foldl (· + ·) (-0.0)

/-- The rank of the percentile `p` among `n` samples. The conversion to a natural number drops the
fraction and takes whatever is not above zero, NaN included, to 0. -/
def percentileRank (n : Nat) (p : Float) : Nat :=
  min (Float.ofNat n * p / 100).toUInt64.toNat (n - 1)

def percentileOfSorted (sorted : List Float) (p : Float) : Float :=
  sorted.getD (percentileRank sorted.length p) 0

def medianOfSorted (sorted : List Float) : Float :=
  let middle := sorted.length / 2
  if sorted.length % 2 = 1 then sorted.getD middle 0
  else (sorted.getD (middle - 1) 0 + sorted.getD middle 0) / 2

end Sample

/-- The percentile `p` of samples in any order; 0 if there are none. -/
def percentile (xs : List Float) (p : Float) : Float :=
  Sample.percentileOfSorted (Sample.sort xs) p

structure Statistics where
  count : Nat
  min : Float
  max : Float
  mean : Float
  median : Float
  p90 : Float
  p95 : Float
  p99 : Float

def Statistics.of? (xs : List Float) : Option Statistics :=
  let sorted := Sample.sort xs
  let n := sorted.length
  if n = 0 then none
  else some {
    count := n
    min := sorted.getD 0 0
    max := sorted.getD (n - 1) 0
    mean := Sample.sum sorted / Float.ofNat n
    median := Sample.medianOfSorted sorted
    p90 := Sample.percentileOfSorted sorted 90
    p95 := Sample.percentileOfSorted sorted 95
    p99 := Sample.percentileOfSorted sorted 99 }

end LoadReport
