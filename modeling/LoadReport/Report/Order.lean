import LoadReport.Digit
import LoadReport.GroupTable

/-! # The order of groups in reports -/

namespace LoadReport.Report

def scenarios (t : GroupTable) : List (String × Group) := t.toList

/-- The number that a product id denotes; an id that is not all digits counts as 0. -/
def productNumber (id : String) : Nat := (Digit.number? id.toList).getD 0

/-- The digits of a product id without leading zeros; none if the id is not all digits. -/
def significantDigits (id : String) : List Char :=
  if id.toList.all (Digit.value? · |>.isSome) then id.toList.dropWhile (· = '0') else []

/-- Ids of any length are compared as numbers: by how many digits they have, then digit by digit. -/
def compareIds (a b : String) : Ordering :=
  (compare (significantDigits a).length (significantDigits b).length).then
    (compare (significantDigits a) (significantDigits b))

def productLE (a b : String × Group) : Bool :=
  ((compareIds a.1 b.1).then (compare a.2.firstSeen b.2.firstSeen)).isLE

/-- Products in ascending order of their numbers. The sort is stable, so products that tie in all
else stay in order of their ids. -/
def products (t : GroupTable) : List (String × Group) := t.toList.mergeSort productLE

end LoadReport.Report
