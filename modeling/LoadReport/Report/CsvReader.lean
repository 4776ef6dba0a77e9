/-! # Reading comma-separated records

Fields are separated by commas and every record ends in a line feed. A field that begins with a
quote ends at its closing quote and may hold commas, line breaks and doubled quotes.
-/

namespace LoadReport.Report.Csv

/-- Where in a field the reader is, and its characters so far, the latest first. -/
inductive Cursor where
  | start
  | plain (cs : List Char)
  | quoted (cs : List Char)
  /-- After a quote inside quotes, which closes the field unless another one follows. -/
  | closing (cs : List Char)

def Cursor.text : Cursor → String
  | .start => ""
  | .plain cs | .quoted cs | .closing cs => String.ofList cs.reverse

/-- The records from a cursor on, given the fields before it in its record, the latest first. -/
def readFrom : Cursor → List String → List Char → Option (List (List String))
  | .start, [], [] => some []
  | .quoted cs, fields, '"' :: r => readFrom (.closing cs) fields r
  | .quoted cs, fields, c :: r => readFrom (.quoted (c :: cs)) fields r
  | .closing cs, fields, '"' :: r => readFrom (.quoted ('"' :: cs)) fields r
  | .start, fields, '"' :: r => readFrom (.quoted []) fields r
  | cursor, fields, ',' :: r => readFrom .start (cursor.text :: fields) r
  | cursor, fields, '\n' :: r =>
    (readFrom .start [] r).map ((cursor.text :: fields).reverse :: ·)
  | .start, fields, c :: r => readFrom (.plain [c]) fields r
  | .plain cs, fields, c :: r => if c = '"' then none else readFrom (.plain (c :: cs)) fields r
  | _, _, _ => none

def read? (s : String) : Option (List (List String)) := readFrom .start [] s.toList

end LoadReport.Report.Csv
