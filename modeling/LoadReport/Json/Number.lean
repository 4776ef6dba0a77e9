import LoadReport.Json.Value

/-! # Number literals

A literal is read into a significand of at most 64 bits and a power of ten, and these are combined
by a single float operation, so the result can differ from the nearest float in its last bit.
-/

namespace LoadReport.Json

structure Literal where
  negative : Bool
  whole : List Nat
  fraction : List Nat
  exponent : Option Int

namespace Literal

/-- Appends digits to a significand as long as it fits 64 bits; what is left of the digits follows.
-/
def absorb : Nat → List Nat → Nat × List Nat
  | s, [] => (s, [])
  | s, d :: ds => if s * 10 + d < 0x10000000000000000 then absorb (s * 10 + d) ds else (s, d :: ds)

def powerOfTen (n : Nat) : Float := Float.ofScientific 1 false n

/-- Divides by `10 ^ n`, which is taken in steps of `10 ^ 308` where it is not a float itself. -/
def divide (x : Float) (n : Nat) : Float :=
  if n ≤ 308 then x / powerOfTen n
  else if x == 0 then x
  else divide (x / powerOfTen 308) (n - 308)
termination_by n

def scale? (significand : Nat) (exponent : Int) : Option Float :=
  let x := Float.ofNat significand
  if exponent < 0 then some (divide x exponent.natAbs)
  else if exponent ≤ 308 then
    let y := x * powerOfTen exponent.natAbs
    if y.isInf then none else some y
  else if x == 0 then some x
  else none

/-- The float of a literal. Written exponents past 31 bits count as infinite. -/
def float? (l : Literal) : Option Float := do
  let (s, dropped) := absorb 0 l.whole
  let (s, ignored) := absorb s l.fraction
  let shift : Int := dropped.length - (l.fraction.length - ignored.length : Nat)
  let magnitude ← match l.exponent with
    | none => scale? s shift
    | some e =>
      if e.natAbs < 0x80000000 then scale? s (shift + e)
      else if e < 0 || s = 0 then some 0
      else none
  return if l.negative then -magnitude else magnitude

/-- The whole number of a literal that is written as one and fits 64 bits. Negative zero does not
count as whole. -/
def integer? (l : Literal) : Option Number :=
  let (s, dropped) := absorb 0 l.whole
  if l.fraction = [] && l.exponent = none && dropped = [] then
    if !l.negative then some (.natural s)
    else if 0 < s && s ≤ 0x8000000000000000 then some (.negative s)
    else none
  else none

def number? (l : Literal) : Option Number :=
  match l.integer? with
  | some n => some n
  | none => l.float?.map .float

end Literal

end LoadReport.Json
