import LoadReport.Binary64

/-! # Shortest decimals

Of the decimals that round to a given float, the shortest are taken, and of these the nearest to the
float. The decimal is found by refining a grid of powers of ten until one of the two grid points
around the float lies in the interval of reals that round to it.
-/

namespace LoadReport.Decimal

/-- Which of two equally near decimals is taken. -/
inductive Tie where
  | toEven
  | up
  deriving DecidableEq

/-- The number `digits * 10 ^ exponent`. -/
structure Scientific where
  digits : Nat
  exponent : Int

/-- A positive float and the reals that round to it, all in quarters of its last bit. The ends
belong to the interval iff the significand is even. -/
structure Interval where
  low : Nat
  value : Nat
  high : Nat
  closed : Bool
  /-- The power of two of a quarter of the last bit. -/
  exponent : Int

/-- Below a power of two the floats lie twice as dense. -/
def Interval.around (x : Float) : Interval :=
  let m := Binary64.significand x
  let dense := Binary64.fractionBits x = 0 && 1 < Binary64.exponentBits x
  { low := if dense then 4 * m - 1 else 4 * m - 2
    value := 4 * m
    high := 4 * m + 2
    closed := m % 2 = 0
    exponent := Binary64.exponent x - 2 }

/-- The grid point of `10 ^ k` that lies in the interval and is nearest to the float, if any. -/
def Interval.gridPoint? (i : Interval) (tie : Tie) (k : Int) : Option Nat :=
  let unit := Nat.pow 2 i.exponent.toNat * Nat.pow 10 (-k).toNat
  let step := Nat.pow 2 (-i.exponent).toNat * Nat.pow 10 k.toNat
  let below := i.value * unit / step
  let within (a b : Nat) : Bool := if i.closed then a ≤ b else a < b
  let belowHits := within (i.low * unit) (below * step)
  let aboveHits := within ((below + 1) * step) (i.high * unit)
  match belowHits, aboveHits with
  | false, false => none
  | true, false => some below
  | false, true => some (below + 1)
  | true, true =>
    match compare (2 * (i.value * unit - below * step)) step with
    | .lt => some below
    | .gt => some (below + 1)
    | .eq => if tie = .toEven && below % 2 = 0 then some below else some (below + 1)

def Interval.search (i : Interval) (tie : Tie) : Nat → Int → Scientific
  | 0, k => ⟨0, k⟩
  | n + 1, k =>
    match i.gridPoint? tie k with
    | some d => ⟨d, k⟩
    | none => i.search tie n (k - 1)

/-- A power of ten above the float: 0.30103 is just above the decimal logarithm of two. -/
def Interval.leading (i : Interval) : Int :=
  (i.value.log2 + 1 + i.exponent) * 30103 / 100000 + 1

/-- The shortest decimal of the magnitude of a finite float. Seventeen digits always suffice, so the
search ends within twenty grids. -/
def shortest (tie : Tie) (x : Float) : Scientific :=
  if Binary64.significand x = 0 then ⟨0, 0⟩
  else
    let i := Interval.around x
    i.search tie 20 i.leading

def zeros (n : Nat) : String := String.ofList (List.replicate n '0')

def Scientific.positional (d : Scientific) : String :=
  let s := toString d.digits
  let point := s.length + d.exponent
  if 0 ≤ d.exponent then s ++ zeros d.exponent.toNat
  else if 0 < point then
    String.ofList (s.toList.take point.toNat) ++ "." ++ String.ofList (s.toList.drop point.toNat)
  else "0." ++ zeros (-point).toNat ++ s

def Scientific.exponential (d : Scientific) : String :=
  let s := toString d.digits
  let e := s.length + d.exponent - 1
  let mantissa := match s.toList with
    | [] => ""
    | [c] => String.singleton c
    | c :: r => String.singleton c ++ "." ++ String.ofList r
  mantissa ++ (if e < 0 then "e-" else "e+") ++ toString e.natAbs

def plain (x : Float) : String :=
  if x.isNaN then "NaN"
  else
    (if Binary64.isNegative x then "-" else "") ++
      if x.isInf then "inf" else (shortest .up x).positional

end LoadReport.Decimal
