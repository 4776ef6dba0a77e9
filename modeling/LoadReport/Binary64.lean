/-! # The parts of a binary64 number

A finite float is `± significand * 2 ^ exponent`, read off its bit pattern.
-/

namespace LoadReport.Binary64

def isNegative (x : Float) : Bool := 0x8000000000000000 ≤ x.toBits

/-- The eleven exponent bits; all of them are set in infinities and NaN only. -/
def exponentBits (x : Float) : Nat := x.toBits.toNat / 0x10000000000000 % 0x800

def fractionBits (x : Float) : Nat := x.toBits.toNat % 0x10000000000000

/-- Subnormal numbers lack the implicit leading bit. -/
def significand (x : Float) : Nat :=
  if exponentBits x = 0 then fractionBits x else 0x10000000000000 + fractionBits x

def exponent (x : Float) : Int := (max (exponentBits x) 1 : Nat) - 1075

end LoadReport.Binary64
