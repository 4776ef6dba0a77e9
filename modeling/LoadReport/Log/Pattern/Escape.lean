import LoadReport.WhiteSpace
import LoadReport.Digit

/-! # Characters in patterns

Patterns are used without tables of scripts and of letter case. So in Unicode mode there are no
named classes, no word boundaries and no case folding; in byte mode there is nothing that matches
parts of a character.
-/

namespace LoadReport.Log.Pattern

structure Flags where
  ignoreCase : Bool := false
  /-- White space and comments in a pattern do not count. -/
  extended : Bool := false
  unicode : Bool := true

namespace Flags

def set? (f : Flags) (on : Bool) : Char → Option Flags
  | 'i' => some { f with ignoreCase := on }
  | 'x' => some { f with extended := on }
  | 'u' => some { f with unicode := on }
  | 'm' | 's' | 'U' | 'R' => some f
  | _ => none

def dropComments (inComment : Bool) : List Char → List Char
  | [] => []
  | c :: r =>
    if inComment then dropComments (c ≠ '\n') r
    else if isWhiteSpace c then dropComments false r
    else if c = '#' then dropComments true r
    else c :: r

def skip (f : Flags) (s : List Char) : List Char :=
  if f.extended then dropComments false s else s

end Flags

/-- What a backslash and the characters after it stand for. -/
inductive Escape where
  /-- A character; by the number of a byte, perhaps. -/
  | char (c : Char) (byte : Bool)
  | named (negated : Bool)
  | wordBoundary
  | textBoundary

def hexChar? (f : Flags) : Nat → Nat → List Char → Option (Char × List Char)
  | 0, value, s => if value.isValidChar then some (Char.ofNat value, s) else none
  | n + 1, value, s =>
    match f.skip s with
    | [] => none
    | c :: r => do hexChar? f n (value * 16 + (← Digit.hexValue? c)) r

namespace Escape

/-- An escape after its backslash. Numbers refer back to groups, which is refused, and so are
letters without a meaning. Classes of Unicode properties would need tables. -/
def read? (f : Flags) : List Char → Option (Escape × List Char)
  | [] => none
  | c :: r =>
    match c with
    | 'x' => (hexChar? f 2 0 r).map fun (c, r) => (.char c true, r)
    | 'u' => (hexChar? f 4 0 r).map fun (c, r) => (.char c false, r)
    | 'U' => (hexChar? f 8 0 r).map fun (c, r) => (.char c false, r)
    | 'd' | 's' | 'w' => some (.named false, r)
    | 'D' | 'S' | 'W' => some (.named true, r)
    | 'b' | 'B' | '<' | '>' => some (.wordBoundary, r)
    | 'A' | 'z' => some (.textBoundary, r)
    | 'a' => some (.char '\x07' false, r)
    | 'f' => some (.char '\x0c' false, r)
    | 't' => some (.char '\t' false, r)
    | 'n' => some (.char '\n' false, r)
    | 'r' => some (.char '\r' false, r)
    | 'v' => some (.char '\x0b' false, r)
    | c => if c ≤ '\x7f' && !c.isAlphanum then some (.char c false, r) else none

def isUsable (f : Flags) : Escape → Bool
  | .char c byte => if f.unicode then !f.ignoreCase else c ≤ '\x7f' || !byte
  | .named negated => !f.unicode && !negated
  | .wordBoundary => !f.unicode
  | .textBoundary => true

def isMember (f : Flags) : Escape → Bool
  | .char c _ => if f.unicode then !f.ignoreCase else c ≤ '\x7f'
  | .named negated => !f.unicode && !negated
  | .wordBoundary | .textBoundary => false

end Escape

/-- How deep parts nest that stand side by side; a single one stands for itself. -/
def sideBySide : List Nat → Nat
  | [] => 0
  | [d] => d
  | ds => ds.foldl max 0 + 1

end LoadReport.Log.Pattern
