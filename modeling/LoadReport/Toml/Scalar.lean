import LoadReport.Digit
import LoadReport.Timestamp
import LoadReport.Toml.Value

/-! # TOML scalars

Strings in four notations, and words: numbers, booleans, dates and times.
-/

namespace LoadReport.Toml

def isText (c : Char) : Bool := c = '\t' || (' ' ≤ c && c ≠ '\x7f')

def scalar? (n : Nat) : Option Char := if n.isValidChar then some (Char.ofNat n) else none

inductive Escape where
  | none
  | begun
  | digits (missing value : Nat)
  | blank
  /-- A backslash that hides the line break, and blanks or line breaks after it. -/
  | folded

def simpleEscape? : Char → Option Char
  | 'b' => some '\x08'
  | 't' => some '\t'
  | 'n' => some '\n'
  | 'f' => some '\x0c'
  | 'r' => some '\r'
  | '"' => some '"'
  | '\\' => some '\\'
  | _ => none

/-- A string on one line after its opening quote, and what follows the closing one. -/
def basic? : Escape → List Char → Option (List Char × List Char)
  | .none, '"' :: r => some ([], r)
  | .none, '\\' :: r => basic? .begun r
  | .none, c :: r => if isText c then (basic? .none r).map fun (cs, r) => (c :: cs, r) else none
  | .begun, 'u' :: r => basic? (.digits 4 0) r
  | .begun, 'U' :: r => basic? (.digits 8 0) r
  | .begun, c :: r => do
    let c ← simpleEscape? c
    let (cs, r) ← basic? .none r
    return (c :: cs, r)
  | .digits missing value, c :: r => do
    let value := value * 16 + (← Digit.hexValue? c)
    if missing ≤ 1 then
      let c ← scalar? value
      let (cs, r) ← basic? .none r
      return (c :: cs, r)
    else basic? (.digits (missing - 1) value) r
  | _, _ => none

/-- A string of several lines after its opening quotes. One or two quotes may touch the closing
ones. -/
def multiline? : Escape → List Char → Option (List Char × List Char)
  | .none, '"' :: '"' :: '"' :: '"' :: '"' :: r => some (['"', '"'], r)
  | .none, '"' :: '"' :: '"' :: '"' :: r => some (['"'], r)
  | .none, '"' :: '"' :: '"' :: r => some ([], r)
  | .none, '\\' :: r => multiline? .begun r
  | .none, '\r' :: '\n' :: r => (multiline? .none r).map fun (cs, r) => ('\n' :: cs, r)
  | .none, c :: r =>
    if isText c || c = '\n' then (multiline? .none r).map fun (cs, r) => (c :: cs, r) else none
  | .begun, 'u' :: r => multiline? (.digits 4 0) r
  | .begun, 'U' :: r => multiline? (.digits 8 0) r
  | .begun, ' ' :: r | .begun, '\t' :: r => multiline? .blank r
  | .begun, '\n' :: r | .begun, '\r' :: '\n' :: r => multiline? .folded r
  | .begun, c :: r => do
    let c ← simpleEscape? c
    let (cs, r) ← multiline? .none r
    return (c :: cs, r)
  | .blank, ' ' :: r | .blank, '\t' :: r => multiline? .blank r
  | .blank, '\n' :: r | .blank, '\r' :: '\n' :: r => multiline? .folded r
  | .folded, ' ' :: r | .folded, '\t' :: r | .folded, '\n' :: r | .folded, '\r' :: '\n' :: r =>
    multiline? .folded r
  | .folded, '"' :: '"' :: '"' :: '"' :: '"' :: r => some (['"', '"'], r)
  | .folded, '"' :: '"' :: '"' :: '"' :: r => some (['"'], r)
  | .folded, '"' :: '"' :: '"' :: r => some ([], r)
  | .folded, '\\' :: r => multiline? .begun r
  | .folded, c :: r =>
    if isText c then (multiline? .none r).map fun (cs, r) => (c :: cs, r) else none
  | .digits missing value, c :: r => do
    let value := value * 16 + (← Digit.hexValue? c)
    if missing ≤ 1 then
      let c ← scalar? value
      let (cs, r) ← multiline? .none r
      return (c :: cs, r)
    else multiline? (.digits (missing - 1) value) r
  | _, _ => none

def literal? : List Char → Option (List Char × List Char)
  | '\'' :: r => some ([], r)
  | c :: r => if isText c then (literal? r).map fun (cs, r) => (c :: cs, r) else none
  | [] => none

def multilineLiteral? : List Char → Option (List Char × List Char)
  | '\'' :: '\'' :: '\'' :: '\'' :: '\'' :: r => some (['\'', '\''], r)
  | '\'' :: '\'' :: '\'' :: '\'' :: r => some (['\''], r)
  | '\'' :: '\'' :: '\'' :: r => some ([], r)
  | '\r' :: '\n' :: r => (multilineLiteral? r).map fun (cs, r) => ('\n' :: cs, r)
  | c :: r =>
    if isText c || c = '\n' then (multilineLiteral? r).map fun (cs, r) => (c :: cs, r) else none
  | [] => none

/-- A line break right after the opening quotes does not belong to the string. -/
def dropLineBreak : List Char → List Char
  | '\n' :: r | '\r' :: '\n' :: r => r
  | r => r

/-- Digits in which single underscores may stand between two of them. -/
def isGrouped (isDigit : Char → Bool) : List Char → Bool
  | [] => false
  | [c] => isDigit c
  | c :: '_' :: r => isDigit c && isGrouped isDigit r
  | c :: r => isDigit c && isGrouped isDigit r

/-- The number that digits of some base denote; underscores are passed over. -/
def digitsValue (base : Nat) (cs : List Char) : Nat :=
  Digit.number base (cs.filterMap Digit.hexValue?)

def splitSign : List Char → Bool × List Char
  | '-' :: r => (true, r)
  | '+' :: r => (false, r)
  | r => (false, r)

/-- A single digit, or grouped digits that begin with another one than 0. -/
def isWhole (cs : List Char) : Bool :=
  isGrouped Char.isDigit cs && (cs.head? ≠ some '0' || cs.length = 1)

def bounded? (n : Int) : Option Value :=
  if -0x8000000000000000 ≤ n && n < 0x8000000000000000 then some (.integer n) else none

def integer? (word : List Char) : Option Value :=
  match word with
  | '0' :: 'x' :: r =>
    if isGrouped (Digit.hexValue? · |>.isSome) r then bounded? (digitsValue 16 r) else none
  | '0' :: 'o' :: r =>
    if isGrouped (fun c => '0' ≤ c && c ≤ '7') r then bounded? (digitsValue 8 r) else none
  | '0' :: 'b' :: r =>
    if isGrouped (fun c => c = '0' || c = '1') r then bounded? (digitsValue 2 r) else none
  | _ =>
    let (negative, r) := splitSign word
    if isWhole r then
      let n : Int := digitsValue 10 r
      bounded? (if negative then -n else n)
    else none

/-- The least number that is not rounded to a finite binary64 float. -/
def binary64Limit : Nat := Nat.pow 2 1024 - Nat.pow 2 970

def overflows (digits : List Nat) (exponent : Int) : Bool :=
  let significant := digits.dropWhile (· = 0)
  let size := significant.length + exponent
  if significant = [] || size < 300 then false
  else if 310 < size then true
  else
    let n := Digit.number 10 significant
    binary64Limit * Nat.pow 10 (-exponent).toNat ≤ n * Nat.pow 10 exponent.toNat

/-- A number with a fraction, an exponent or both. A positive one must not be too large. -/
def float? (word : List Char) : Option Value := do
  let (negative, r) := splitSign word
  let result := Value.float (String.ofList word)
  if r = "inf".toList || r = "nan".toList then return result
  let isE (c : Char) := c = 'e' || c = 'E'
  let (mantissa, exponent) := r.span (!isE ·)
  let (whole, fraction) := mantissa.span (· ≠ '.')
  guard (isWhole whole)
  guard (fraction = [] || isGrouped Char.isDigit fraction.tail)
  guard (fraction ≠ [] || exponent ≠ [])
  let (down, power) := splitSign exponent.tail
  guard (exponent = [] || isGrouped Char.isDigit power)
  let digits := (whole ++ fraction).filterMap Digit.value?
  let e : Int := digitsValue 10 power
  let places : Int := (fraction.filter Char.isDigit).length
  guard (negative || !overflows digits ((if down then -e else e) - places))
  return result

def isDate : List Char → Bool
  | [a, b, c, d, '-', e, f, '-', g, h] =>
    [a, b, c, d, e, f, g, h].all Char.isDigit &&
      let year := digitsValue 10 [a, b, c, d]
      let month := digitsValue 10 [e, f]
      let day := digitsValue 10 [g, h]
      1 ≤ month && month ≤ 12 && 1 ≤ day && day ≤ Timestamp.daysInMonth year month
  | _ => false

def isTime : List Char → Bool
  | a :: b :: ':' :: c :: d :: ':' :: e :: f :: r =>
    [a, b, c, d, e, f].all Char.isDigit &&
      digitsValue 10 [a, b] ≤ 23 && digitsValue 10 [c, d] ≤ 59 && digitsValue 10 [e, f] ≤ 60 &&
      (match r with
        | [] => true
        | '.' :: ds => ds ≠ [] && ds.all Char.isDigit
        | _ => false)
  | _ => false

def isOffsetTime (cs : List Char) : Bool :=
  let (time, offset) := cs.span fun c => c ≠ 'Z' && c ≠ 'z' && c ≠ '+' && c ≠ '-'
  isTime time &&
    match offset with
    | [] | ['Z'] | ['z'] => true
    | [_, a, b, ':', c, d] =>
      [a, b, c, d].all Char.isDigit && digitsValue 10 [a, b] ≤ 23 && digitsValue 10 [c, d] ≤ 59
    | _ => false

def dateTime? (word : List Char) : Option Value :=
  let date := word.take 10
  let valid := match word.drop 10 with
    | [] => isDate date || isTime word
    | c :: time =>
      (isDate date && (c = 'T' || c = 't' || c = ' ') && isOffsetTime time) || isTime word
  if valid then some (.dateTime (String.ofList word)) else none

def word? (word : List Char) : Option Value :=
  if word = "true".toList then some (.boolean true)
  else if word = "false".toList then some (.boolean false)
  else integer? word <|> float? word <|> dateTime? word

def isWordChar (c : Char) : Bool :=
  c.isAlphanum || c = '_' || c = '+' || c = '-' || c = '.' || c = ':'

/-- The word at the front. A time of day may follow a date after one blank. -/
def takeWord (s : List Char) : List Char × List Char :=
  let (word, rest) := s.span isWordChar
  match rest with
  | ' ' :: c :: r =>
    if isDate word && c.isDigit then
      let (time, rest) := (c :: r).span isWordChar
      (word ++ ' ' :: time, rest)
    else (word, rest)
  | _ => (word, rest)

def Value.scalar? : List Char → Option (Value × List Char)
  | '"' :: '"' :: '"' :: r => (multiline? .none (dropLineBreak r)).map fun (cs, r) =>
    (.string (String.ofList cs), r)
  | '"' :: r => (basic? .none r).map fun (cs, r) => (.string (String.ofList cs), r)
  | '\'' :: '\'' :: '\'' :: r => (multilineLiteral? (dropLineBreak r)).map fun (cs, r) =>
    (.string (String.ofList cs), r)
  | '\'' :: r => (literal? r).map fun (cs, r) => (.string (String.ofList cs), r)
  | s =>
    let (word, r) := takeWord s
    (word? word).map (·, r)

end LoadReport.Toml
