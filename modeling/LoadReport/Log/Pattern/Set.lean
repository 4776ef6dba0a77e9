import LoadReport.Log.Pattern.Escape

/-! # Sets of characters in patterns

A set stands in brackets. Its items are characters, ranges, classes and sets, side by side or on
the two sides of an operator. Sets that are still open are kept in a list, the innermost first.
-/

namespace LoadReport.Log.Pattern

inductive SetFrame where
  /-- How deep the items nest around an inner set, the latest first. -/
  | around (items : List Nat)
  | left (depth : Nat)

namespace SetFrame

/-- Completes an operator, if one is open. -/
def close (depth : Nat) : List SetFrame → Nat × List SetFrame
  | .left l :: frames => (max l depth + 1, frames)
  | frames => (depth, frames)

/-- Puts what has been read on the left side of a new operator. -/
def operator (depth : Nat) (frames : List SetFrame) : List SetFrame :=
  let (depth, frames) := close depth frames
  .left depth :: frames

end SetFrame

def asciiClasses : List String :=
  [ "alnum", "alpha", "ascii", "blank", "cntrl", "digit", "graph", "lower", "print", "punct",
    "space", "upper", "word", "xdigit" ]

def asciiClass? : List Char → Option (Bool × List Char)
  | ':' :: r =>
    let (negated, r) := if r.head? = some '^' then (true, r.tail) else (false, r)
    match r.span (· ≠ ':') with
    | (name, ':' :: ']' :: r) =>
      if asciiClasses.contains (String.ofList name) then some (negated, r) else none
    | _ => none
  | _ => none

/-- The character after a hyphen that tells a range. White space and the sign of a comment are
passed over. -/
def afterHyphen (f : Flags) (s : List Char) : Option Char :=
  if f.extended then
    match s.dropWhile isWhiteSpace with
    | '#' :: r => (r.dropWhile isWhiteSpace).head? <|> s.head?
    | c :: _ => some c
    | [] => s.head?
  else s.head?

def setEscape? (f : Flags) : List Char → Option (Escape × List Char)
  | [] => none
  | '\\' :: r => Escape.read? f r
  | c :: r => some (.char c false, r)

/-- An item that is no class in brackets and no set: a single one or a range. -/
def range? (f : Flags) (s : List Char) : Option (List Char) := do
  let (a, r) ← setEscape? f s
  guard (a.isMember f)
  match f.skip r with
  | [] => none
  | '-' :: r' =>
    if afterHyphen f r' = some ']' || afterHyphen f r' = some '-' then return '-' :: r'
    else
      let (b, r) ← setEscape? f (f.skip r')
      guard (b.isMember f)
      match a, b with
      | .char x _, .char y _ => if x ≤ y then some r else none
      | _, _ => none
  | r => return r

/-- The front of a set after its bracket. In byte mode no set can be negated. -/
def openSet? (f : Flags) (s : List Char) : Option (List Char) :=
  match f.skip s with
  | '^' :: r => if f.unicode then some r else none
  | r => some r

/-- The rest of a set: how deep it nests, and what follows it. At its front hyphens, and a bracket
that would close it, stand for themselves. Each turn consumes a character or leaves the front. -/
def setFrom? (f : Flags) :
    Nat → Bool → List Nat → List SetFrame → List Char → Option (Nat × List Char)
  | 0, _, _, _, _ => none
  | n + 1, front, items, frames, s => do
    match f.skip s with
    | [] => none
    | c :: r =>
      if front then
        if c = '-' then
          guard ((Escape.char c false).isMember f)
          setFrom? f n true (0 :: items) frames r
        else if c = ']' && items = [] then
          guard ((Escape.char c false).isMember f)
          setFrom? f n false [0] frames r
        else setFrom? f n false items frames (c :: r)
      else
        match c, r with
        | '[', r =>
          match asciiClass? r with
          | some (negated, r) =>
            guard (if f.unicode then !f.ignoreCase else !negated)
            setFrom? f n false (0 :: items) frames r
          | none => setFrom? f n true [] (.around items :: frames) (← openSet? f r)
        | ']', r =>
          match SetFrame.close (sideBySide items) frames with
          | (depth, []) => some (depth + 1, r)
          | (depth, .around items :: frames) => setFrom? f n false ((depth + 1) :: items) frames r
          | _ => none
        | '&', '&' :: r | '-', '-' :: r | '~', '~' :: r =>
          setFrom? f n false [] (SetFrame.operator (sideBySide items) frames) r
        | c, r => setFrom? f n false (0 :: items) frames (← range? f (c :: r))

def set? (f : Flags) (s : List Char) : Option (Nat × List Char) := do
  setFrom? f (2 * s.length + 2) true [] [] (← openSet? f s)

end LoadReport.Log.Pattern
