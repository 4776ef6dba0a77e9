import LoadReport.Decimal.Fixed
import LoadReport.Digit

/-! # Timestamps

A date and a time of day with a UTC offset. Two timestamps are ordered by the instants they denote,
whatever their offsets. A second `:60` may end any minute; it follows `:59` and belongs to it.
-/

namespace LoadReport

structure Timestamp where
  year : Nat
  month : Nat
  day : Nat
  hour : Nat
  minute : Nat
  second : Nat
  nanosecond : Nat
  /-- Seconds east of UTC. -/
  offset : Int
  deriving DecidableEq

namespace Timestamp

def isLeapYear (y : Nat) : Bool := y % 4 = 0 && (y % 100 ≠ 0 || y % 400 = 0)

def daysInMonth (y m : Nat) : Nat :=
  match m with
  | 2 => if isLeapYear y then 29 else 28
  | 4 | 6 | 9 | 11 => 30
  | _ => 31

/-- The days from 0000-01-01 to the first day of a year. -/
def daysBeforeYear (y : Nat) : Nat :=
  365 * y + (y + 3) / 4 - (y + 99) / 100 + (y + 399) / 400

def daysBeforeMonth (y m : Nat) : Nat :=
  (List.range (m - 1)).foldl (fun n i => n + daysInMonth y (i + 1)) 0

/-- The days from 1970-01-01 to the date. -/
def dayNumber (t : Timestamp) : Int :=
  (daysBeforeYear t.year + daysBeforeMonth t.year t.month + (t.day - 1) : Nat)
    - (daysBeforeYear 1970 : Nat)

/-- The whole seconds of UTC since 1970; those of `:59` throughout a leap second. -/
def unix (t : Timestamp) : Int :=
  t.dayNumber * 86400 + (t.hour * 3600 + t.minute * 60 + min t.second 59 : Nat) - t.offset

/-- The nanoseconds past the whole second; a leap second is the second billion of them. -/
def fraction (t : Timestamp) : Nat :=
  if t.second = 60 then 1000000000 + t.nanosecond else t.nanosecond

def le (a b : Timestamp) : Bool :=
  a.unix < b.unix || (a.unix = b.unix && a.fraction ≤ b.fraction)

def secondOfDay (t : Timestamp) : Int := t.unix % 86400

/-- The nanoseconds from one timestamp to another. A leap second counts as one second if one of the
two lies in it and has the smaller second of the UTC day. -/
def nanosecondsSince (later earlier : Timestamp) : Int :=
  let leap : Int :=
    if earlier.secondOfDay < later.secondOfDay && 1000000000 ≤ earlier.fraction then 1
    else if later.secondOfDay < earlier.secondOfDay && 1000000000 ≤ later.fraction then -1
    else 0
  (later.unix - earlier.unix + leap) * 1000000000 + (later.fraction - earlier.fraction)

/-- `Z`, or a sign with hours and minutes up to 23:59. The minus sign may be U+2212. -/
def offset? : List Char → Option Int
  | ['Z'] | ['z'] => some 0
  | [sign, a, b, ':', c, d] => do
    let h ← Digit.number? [a, b]
    let m ← Digit.number? [c, d]
    if h ≤ 23 && m ≤ 59 then
      let seconds : Int := (h * 3600 + m * 60 : Nat)
      if sign = '+' then some seconds
      else if sign = '-' || sign = '\u2212' then some (-seconds)
      else none
    else none
  | _ => none

/-- The nanoseconds of an optional fraction of a second, and the rest. Digits past the ninth are
dropped. -/
def fraction? : List Char → Option (Nat × List Char)
  | '.' :: s =>
    let ds := s.takeWhile (Digit.value? · |>.isSome)
    if ds = [] then none
    else do
      let n ← Digit.number? ((ds ++ List.replicate 9 '0').take 9)
      return (n, s.dropWhile (Digit.value? · |>.isSome))
  | s => some (0, s)

def isValid (t : Timestamp) : Bool :=
  1 ≤ t.month && t.month ≤ 12 && 1 ≤ t.day && t.day ≤ daysInMonth t.year t.month &&
    t.hour ≤ 23 && t.minute ≤ 59 && t.second ≤ 60

def ofChars? : List Char → Option Timestamp
  | y₁ :: y₂ :: y₃ :: y₄ :: '-' :: m₁ :: m₂ :: '-' :: d₁ :: d₂ :: separator ::
      h₁ :: h₂ :: ':' :: n₁ :: n₂ :: ':' :: s₁ :: s₂ :: rest => do
    let year ← Digit.number? [y₁, y₂, y₃, y₄]
    let month ← Digit.number? [m₁, m₂]
    let day ← Digit.number? [d₁, d₂]
    let hour ← Digit.number? [h₁, h₂]
    let minute ← Digit.number? [n₁, n₂]
    let second ← Digit.number? [s₁, s₂]
    let (nanosecond, rest) ← fraction? rest
    let offset ← offset? rest
    let t : Timestamp := { year, month, day, hour, minute, second, nanosecond, offset }
    if (separator = 'T' || separator = 't' || separator = ' ') && t.isValid then some t else none
  | _ => none

def parse? (s : String) : Option Timestamp := ofChars? s.toList

/-- Date and time of day as written, without fraction and offset. -/
def text (t : Timestamp) : String :=
  let two := Decimal.zeroPadded 2
  Decimal.zeroPadded 4 t.year ++ "-" ++ two t.month ++ "-" ++ two t.day ++ " " ++
    two t.hour ++ ":" ++ two t.minute ++ ":" ++ two t.second

end Timestamp

end LoadReport
