/-! # Columns of text

Widths count characters. A text that is too wide is left as it is.
-/

namespace LoadReport.Report

def blanks (n : Nat) : String := String.ofList (List.replicate n ' ')

def alignLeft (width : Nat) (s : String) : String := s ++ blanks (width - s.length)

def alignRight (width : Nat) (s : String) : String := blanks (width - s.length) ++ s

/-- An odd blank goes to the right. -/
def center (width : Nat) (s : String) : String :=
  let n := width - s.length
  blanks (n / 2) ++ s ++ blanks (n - n / 2)

end LoadReport.Report
