/-! # JSON values

The members of an object are kept in ascending order of their names, each name once.
-/

namespace LoadReport

namespace Json

/-- A whole number of 64 bits stays exact; any other number is a float. -/
inductive Number where
  | natural (n : Nat)
  /-- The number `-n`. -/
  | negative (n : Nat)
  | float (x : Float)

def Number.toFloat : Number → Float
  | .natural n => Float.ofNat n
  | .negative n => -Float.ofNat n
  | .float x => x

end Json

inductive Json where
  | null
  | bool (b : Bool)
  | number (n : Json.Number)
  | string (s : String)
  | array (items : List Json)
  | object (members : List (String × Json))

namespace Json

/-- A later member replaces an earlier one of the same name. -/
def insertMember (name : String) (value : Json) : List (String × Json) → List (String × Json)
  | [] => [(name, value)]
  | (n, v) :: ms =>
    if name < n then (name, value) :: (n, v) :: ms
    else if name = n then (name, value) :: ms
    else (n, v) :: insertMember name value ms

def member? (name : String) : Json → Option Json
  | .object ms => ms.lookup name
  | _ => none

def string? : Json → Option String
  | .string s => some s
  | _ => none

def number? : Json → Option Number
  | .number n => some n
  | _ => none

def members? : Json → Option (List (String × Json))
  | .object ms => some ms
  | _ => none

end Json

end LoadReport
