import LoadReport.Decimal.Fixed

/-! # Numbers in reports -/

namespace LoadReport.Report

/-- Digits from the last to the first, with a comma after every third one that is not the first. -/
def separated : List Char → List Char
  | a :: b :: c :: d :: r => a :: b :: c :: ',' :: separated (d :: r)
  | ds => ds

def count (n : Nat) : String :=
  String.ofList (separated (toString n).toList.reverse).reverse

def figure (x : Float) : String := Decimal.fixed 2 x

end LoadReport.Report
