import LoadReport.Binary64

/-! # Decimals with a fixed number of places

The exact binary value is rounded to the nearest decimal; a half goes to the even neighbour.
-/

namespace LoadReport.Decimal

/-- The natural number nearest to `num / den`, the even one of two equally near. -/
def roundDiv (num den : Nat) : Nat :=
  let q := num / den
  match compare (2 * (num % den)) den with
  | .lt => q
  | .eq => q + q % 2
  | .gt => q + 1

def zeroPadded (width n : Nat) : String :=
  let s := toString n
  String.ofList (List.replicate (width - s.length) '0') ++ s

/-- `± significand * 2 ^ exponent` in units of the last decimal place, rounded. -/
def scaled (places : Nat) (x : Float) : Nat :=
  let m := Binary64.significand x * Nat.pow 10 places
  let e := Binary64.exponent x
  roundDiv (m * Nat.pow 2 e.toNat) (Nat.pow 2 (-e).toNat)

/-- The sign of a negative zero, or of a negative number rounded to zero, is kept. -/
def fixed (places : Nat) (x : Float) : String :=
  if x.isNaN then "NaN"
  else
    let sign := if Binary64.isNegative x then "-" else ""
    if x.isInf then sign ++ "inf"
    else
      let n := scaled places x
      let unit := Nat.pow 10 places
      sign ++ toString (n / unit) ++ "." ++ zeroPadded places (n % unit)

end LoadReport.Decimal
