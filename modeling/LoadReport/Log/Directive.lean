import LoadReport.Log
import LoadReport.Log.Pattern

/-! # Directives of a log filter

A directive tells how much to show of the records with a certain target, or in a certain scope.
-/

namespace LoadReport.Log

inductive Scope where
  | anywhere
  | field (name : String)
  /-- Inside some spans only. Records here are inside no span. -/
  | span
  deriving DecidableEq

def Scope.contains (r : Record) : Scope → Bool
  | .anywhere => true
  | .field name => r.hasField name
  | .span => false

/-- The highest rank to show of the records in a scope whose target begins with the given one.
Without a target, of all records in the scope. -/
structure Directive where
  target : Option String
  scope : Scope
  rank : Nat
  deriving DecidableEq

namespace Directive

def applies (d : Directive) (r : Record) : Bool :=
  (match d.target with
    | none => true
    | some t => t.toList.isPrefixOf r.target.toList) &&
  d.scope.contains r

def weight (d : Directive) : Nat :=
  match d.target with
  | none => 0
  | some t => t.utf8ByteSize + 1

/-- No less specific: a longer target is more specific, then a field, and of two fields the one with
the greater name. -/
def isAsSpecific (d e : Directive) : Bool :=
  e.weight < d.weight ||
    (e.weight = d.weight &&
      match d.scope, e.scope with
      | .field a, .field b => b ≤ a
      | .field _, _ => true
      | _, .field _ => false
      | _, _ => true)

/-! ## Reading

The form of a directive is that of its text without white space at the ends. Its parts are taken
from the text as it is, at the places where they are in that form; so white space at the front shift
all parts. Places are counted in bytes.
-/

def lower (c : Char) : Char := if 'A' ≤ c && c ≤ 'Z' then Char.ofNat (c.toNat + 32) else c

/-- Levels are written by name in any case, or as a number; `off` is rank 0. -/
def rank? (s : List Char) : Option Nat :=
  let digits := if s.head? = some '+' then s.tail else s
  match (if digits = [] then none else Digit.number? digits) with
  | some n => if n ≤ 5 then some n else none
  | none =>
    match String.ofList (s.map lower) with
    | "off" => some 0
    | "" | "error" => some 1
    | "warn" => some 2
    | "info" => some 3
    | "debug" => some 4
    | "trace" => some 5
    | _ => none

def isStart (c : Char) : Bool := c = '-' || c = ':' || c = '_' || Letter.isAlphanumeric c

def size (s : List Char) : Nat := s.foldl (fun n c => n + c.utf8Size) 0

/-- What is left of a text after so many bytes. No character can be cut. -/
def after? : Nat → List Char → Option (List Char)
  | 0, s => some s
  | _ + 1, [] => none
  | n + 1, c :: s => if c.utf8Size ≤ n + 1 then after? (n + 1 - c.utf8Size) s else none

def before? : Nat → List Char → Option (List Char)
  | 0, _ => some []
  | _ + 1, [] => none
  | n + 1, c :: s =>
    if c.utf8Size ≤ n + 1 then (before? (n + 1 - c.utf8Size) s).map (c :: ·) else none

def part? (s : List Char) (place length : Nat) : Option (List Char) := do
  before? length (← after? place s)

def isDecimal (s : List Char) : Bool :=
  let (whole, r) := s.span Char.isDigit
  let (fraction, r) := match r with
    | '.' :: r => r.span Char.isDigit
    | r => ([], r)
  (whole ≠ [] || fraction ≠ []) &&
    match r with
    | [] => true
    | c :: r =>
      let r := if r.head? = some '+' || r.head? = some '-' then r.tail else r
      (c = 'e' || c = 'E') && r ≠ [] && r.all Char.isDigit

/-- Whether a field can be compared with a value: a number or a pattern. -/
def isValue (s : List Char) : Bool :=
  let r := if s.head? = some '+' || s.head? = some '-' then s.tail else s
  isDecimal r || ["inf", "infinity", "nan"].contains (String.ofList (r.map lower)) ||
    Pattern.isUsable s

/-- A name, or a name and a value. A field stands for the records that have it only if it is without
a value, and outside of spans. -/
def fieldScope? (inSpan : Bool) (field : List Char) : Option Scope :=
  match field.span (· ≠ '=') with
  | (name, []) => some (if inSpan then .span else .field (String.ofList name))
  | (_, _ :: r) => if isValue (r.takeWhile (· ≠ '=')) then some .span else none

/-- The scope after an opening bracket at some place, and what follows the closing bracket at
another: the name of a span, a field in braces, or both. -/
def scope? (s : List Char) (place : Nat) (form : List Char) :
    Option (Scope × Nat × List Char) := do
  let (span, rest) := form.span fun c => c ≠ ']' && c ≠ '\x7b'
  let _ ← part? s place (size span)
  let place := place + size span + 1
  match rest with
  | [] => none
  | ']' :: r => return (.span, place, r)
  | _ :: r =>
    match r.span (· ≠ '\x7d') with
    | ([], _) => none
    | (field, _ :: ']' :: r) =>
      let scope ← fieldScope? (span ≠ []) (← part? s place (size field))
      return (scope, place + size field + 2, r)
    | _ => none

/-- The level from some place on. Without a level everything is shown. -/
def level? (s : List Char) (place : Nat) : Option Nat := do
  match ← after? place s with
  | [] => some Level.trace.rank
  | level => rank? level

def parse? (s : List Char) : Option Directive := do
  let form := trimWhiteSpace s
  guard (form.head?.any fun c => c = '[' || isStart c)
  match form.span fun c => c ≠ '=' && c ≠ '[' with
  | (_, []) =>
    match rank? s with
    | some rank => return ⟨none, .anywhere, rank⟩
    | none => return ⟨some (String.ofList s), .anywhere, Level.trace.rank⟩
  | (name, '[' :: r) =>
    let target ← part? s 0 (size name)
    let target := if name = [] then none else some (String.ofList target)
    let (scope, place, r) ← scope? s (size name + 1) r
    match r with
    | [] => return ⟨target, scope, Level.trace.rank⟩
    | '=' :: _ => return ⟨target, scope, ← level? s (place + 1)⟩
    | _ => none
  | (name, _) =>
    return ⟨some (String.ofList (← part? s 0 (size name))), .anywhere,
      ← level? s (size name + 1)⟩

end Directive

end LoadReport.Log
