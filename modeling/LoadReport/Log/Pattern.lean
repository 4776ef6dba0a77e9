import LoadReport.Letter
import LoadReport.Log.Pattern.Set

/-! # Patterns of field values

A pattern is a regular expression. Nothing here is matched against one; what counts is whether it
can be used at all.
-/

namespace LoadReport.Log.Pattern

structure Frame where
  flags : Flags
  items : List (Option Nat)
  branches : List Nat

structure State where
  flags : Flags := {}
  /-- How deep the items of the latest branch nest, the latest first. One that only sets flags has
  no depth. -/
  items : List (Option Nat) := []
  branches : List Nat := []
  groups : List Frame := []
  names : List (List Char) := []

def depthLimit : Nat := 250

/-- The flags of a group after its question mark, whether an expression follows them, and the rest.
Each flag can be given once, and so can the hyphen after which flags are switched off. -/
def flags? (f : Flags) (seen : List Char) : List Char → Option (Flags × Bool × List Char)
  | [] => none
  | ':' :: r => if seen.head? = some '-' then none else some (f, true, r)
  | ')' :: r => if seen = [] || seen.head? = some '-' then none else some (f, false, r)
  | c :: r =>
    if seen.contains c then none
    else if c = '-' then flags? f (c :: seen) r
    else
      match f.set? (!seen.contains '-') c with
      | some f => flags? f (c :: seen) r
      | none => none

def isName : List Char → Bool
  | [] => false
  | c :: r =>
    (c = '_' || Letter.isAlphabetic c) &&
      r.all fun c => c = '_' || c = '.' || c = '[' || c = ']' || Letter.isAlphanumeric c

namespace State

def push (st : State) (depth : Nat) : State := { st with items := some depth :: st.items }

def depth (st : State) : Nat :=
  sideBySide (sideBySide (st.items.map (·.getD 0)) :: st.branches)

/-- Begins a group; its own flags end with it. -/
def enter (st : State) (f : Flags) : State :=
  { st with
    flags := f
    items := []
    branches := []
    groups := ⟨st.flags, st.items, st.branches⟩ :: st.groups }

/-- A group after its parenthesis. No two groups have the same name. -/
def open? (st : State) (s : List Char) : Option (State × List Char) :=
  match st.flags.skip s with
  | '?' :: 'P' :: '<' :: r | '?' :: '<' :: r =>
    match r.span (· ≠ '>') with
    | (_, []) => none
    | (name, _ :: r) =>
      if isName name && !st.names.contains name then
        some (({ st with names := name :: st.names }).enter st.flags, r)
      else none
  | '?' :: r =>
    (flags? st.flags [] r).map fun (f, opens, r) =>
      (if opens then st.enter f else { st with flags := f, items := none :: st.items }, r)
  | r => some (st.enter st.flags, r)

def close? (st : State) : Option State :=
  match st.groups with
  | [] => none
  | g :: groups =>
    some { st with
      flags := g.flags
      items := some (st.depth + 1) :: g.items
      branches := g.branches
      groups }

def alternate (st : State) : State :=
  { st with
    items := []
    branches := sideBySide (st.items.map (·.getD 0)) :: st.branches }

def repeat? (st : State) : Option State :=
  match st.items with
  | some d :: items => some { st with items := some (d + 1) :: items }
  | _ => none

/-- What follows the state. Braces are refused, since none is closed inside a directive. Each turn
consumes a character. -/
def read? : Nat → State → List Char → Option State
  | 0, _, _ => none
  | n + 1, st, s =>
    match st.flags.skip s with
    | [] => some st
    | '(' :: r => do
      let (st, r) ← st.open? r
      read? n st r
    | ')' :: r => do read? n (← st.close?) r
    | '|' :: r => read? n st.alternate r
    | '[' :: r => do
      let (depth, r) ← set? st.flags r
      read? n (st.push depth) r
    | '?' :: r | '*' :: r | '+' :: r => do
      read? n (← st.repeat?) (if r.head? = some '?' then r.tail else r)
    | '\x7b' :: _ => none
    | '\\' :: r => do
      let (e, r) ← Escape.read? st.flags r
      if e.isUsable st.flags then read? n (st.push 0) r else none
    | '.' :: r => if st.flags.unicode then read? n (st.push 0) r else none
    | '^' :: r | '$' :: r => read? n (st.push 0) r
    | c :: r => if (Escape.char c false).isUsable st.flags then read? n (st.push 0) r else none

end State

def isUsable (s : List Char) : Bool :=
  match State.read? (s.length + 1) {} s with
  | none => false
  | some st => st.groups.isEmpty && st.depth ≤ depthLimit

end LoadReport.Log.Pattern
