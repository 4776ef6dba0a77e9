import LoadReport.Unprintable

/-! # Quoted texts

Texts in quotes, with escapes for quotes, backslashes and whatever cannot be printed.
-/

namespace LoadReport.Quoted

def codePoint (c : Char) : List Char :=
  ['\\', 'u', '\x7b'] ++ (Nat.toDigits 16 c.toNat) ++ ['\x7d']

def escape (c : Char) : List Char :=
  match c with
  | '\x00' => ['\\', '0']
  | '\t' => ['\\', 't']
  | '\r' => ['\\', 'r']
  | '\n' => ['\\', 'n']
  | '"' => ['\\', '"']
  | '\\' => ['\\', '\\']
  | c => if Unprintable.contains c then codePoint c else [c]

def text (s : String) : String :=
  "\"" ++ String.ofList (s.toList.flatMap escape) ++ "\""

end LoadReport.Quoted
