import LoadReport.Decimal.Shortest
import LoadReport.Digit
import LoadReport.Json.Value

/-! # Compact JSON text

No blanks, members in ascending order of their names, shortest float digits.
-/

namespace LoadReport.Json

/-- Floats outside `1e-5 ≤ |x| < 1e16` have an exponent; the others have a point. -/
def floatText (x : Float) : String :=
  let d := Decimal.shortest .toEven x
  let size := (toString d.digits).length + d.exponent
  (if Binary64.isNegative x then "-" else "") ++
    if d.digits = 0 then "0.0"
    else if size ≤ -5 || 16 < size then d.exponential
    else if 0 ≤ d.exponent then d.positional ++ ".0"
    else d.positional

def Number.text : Number → String
  | .natural n => toString n
  | .negative n => "-" ++ toString n
  | .float x => floatText x

def escape (c : Char) : List Char :=
  match c with
  | '"' => ['\\', '"']
  | '\\' => ['\\', '\\']
  | '\x08' => ['\\', 'b']
  | '\t' => ['\\', 't']
  | '\n' => ['\\', 'n']
  | '\x0c' => ['\\', 'f']
  | '\r' => ['\\', 'r']
  | c =>
    if c < ' ' then ['\\', 'u', '0', '0', Digit.hex (c.toNat / 16), Digit.hex (c.toNat % 16)]
    else [c]

def quote (s : String) : String :=
  "\"" ++ String.ofList (s.toList.flatMap escape) ++ "\""

mutual

def compact : Json → String
  | .null => "null"
  | .bool b => if b then "true" else "false"
  | .number n => n.text
  | .string s => quote s
  | .array items => "[" ++ ",".intercalate (compactItems items) ++ "]"
  | .object members => "\x7b" ++ ",".intercalate (compactMembers members) ++ "\x7d"

def compactItems : List Json → List String
  | [] => []
  | v :: vs => compact v :: compactItems vs

def compactMembers : List (String × Json) → List String
  | [] => []
  | (n, v) :: ms => (quote n ++ ":" ++ compact v) :: compactMembers ms

end

end LoadReport.Json
