import LoadReport.Toml.Scalar

/-! # TOML documents

Values nest; the arrays and inline tables that are still open are kept in a list, the innermost
first. A document is a sequence of lines, each of them a key with its value, a header, or blank.
-/

namespace LoadReport.Toml

def isBlank (c : Char) : Bool := c = ' ' || c = '\t'

def dropBlanks (s : List Char) : List Char := s.dropWhile isBlank

/-- The end of a line, after blanks and perhaps a comment. -/
def lineEnd? (s : List Char) : Option (List Char) :=
  let s := dropBlanks s
  let s := if s.head? = some '#' then s.tail.dropWhile isText else s
  match s with
  | [] => some []
  | '\n' :: r | '\r' :: '\n' :: r => some r
  | _ => none

def dropTrivia? (comment : Bool) : List Char → Option (List Char)
  | [] => some []
  | '\n' :: r | '\r' :: '\n' :: r => dropTrivia? false r
  | c :: r =>
    if comment then if isText c then dropTrivia? true r else none
    else if isBlank c then dropTrivia? false r
    else if c = '#' then dropTrivia? true r
    else some (c :: r)

def isBare (c : Char) : Bool := c.isAlphanum || c = '_' || c = '-'

def keyPart? : List Char → Option (String × List Char)
  | '"' :: r => (basic? .none r).map fun (cs, r) => (String.ofList cs, r)
  | '\'' :: r => (literal? r).map fun (cs, r) => (String.ofList cs, r)
  | s =>
    let (cs, r) := s.span isBare
    if cs = [] then none else some (String.ofList cs, r)

/-- At least one part with blanks around it. Each turn consumes a character, so as many turns as
there are characters are enough. -/
def keyParts? : Nat → List Char → Option (List String × List Char)
  | 0, _ => none
  | n + 1, s => do
    let (part, r) ← keyPart? (dropBlanks s)
    match dropBlanks r with
    | '.' :: r => do
      let (parts, r) ← keyParts? n r
      return (part :: parts, r)
    | r => return ([part], r)

def depthLimit : Nat := 80

def key? (s : List Char) : Option (List String × String × List Char) := do
  let (parts, r) ← keyParts? (s.length + 1) s
  guard (parts.length < depthLimit)
  return (parts.dropLast, ← parts.getLast?, r)

def keyEquals? (s : List Char) : Option (List String × String × List Char) := do
  let (path, key, r) ← key? s
  match r with
  | '=' :: r => some (path, key, dropBlanks r)
  | _ => none

/-- An open array or inline table that waits for a value. -/
inductive Frame where
  /-- The items so far, the latest first. -/
  | array (items : List Value)
  /-- The entries so far and the key of the next one. -/
  | inline (entries : Entries) (path : List String) (key : String)

/-- Reading a value either is done or goes on with another value inside open frames. -/
inductive Progress where
  | done (v : Value) (rest : List Char)
  | next (frames : List Frame) (rest : List Char)

/-- Puts a complete value where it belongs, and closes what is closed after it. -/
def settle? : List Frame → Value → List Char → Option Progress
  | [], v, r => some (.done v r)
  | .array items :: frames, v, r => do
    match ← dropTrivia? false r with
    | ',' :: r =>
      match ← dropTrivia? false r with
      | ']' :: r => settle? frames (.array (v :: items).reverse) r
      | r => some (.next (.array (v :: items) :: frames) r)
    | ']' :: r => settle? frames (.array (v :: items).reverse) r
    | _ => none
  | .inline entries path key :: frames, v, r => do
    let entries ← entries.insert path key v
    match dropBlanks r with
    | ',' :: r => do
      let (path, key, r) ← keyEquals? r
      return .next (.inline entries path key :: frames) r
    | '\x7d' :: r => settle? frames (.table .inline entries) r
    | _ => none

def begin? (frames : List Frame) : List Char → Option Progress
  | '[' :: r => do
    guard (frames.length + 1 < depthLimit)
    match ← dropTrivia? false r with
    | ']' :: r => settle? frames (.array []) r
    | r => return .next (.array [] :: frames) r
  | '\x7b' :: r => do
    guard (frames.length + 1 < depthLimit)
    match dropBlanks r with
    | '\x7d' :: r => settle? frames (.table .inline []) r
    | r => do
      let (path, key, r) ← keyEquals? r
      return .next (.inline [] path key :: frames) r
  | s => do
    let (v, r) ← Value.scalar? s
    settle? frames v r

/-- Each turn consumes a character. -/
def values? : Nat → List Frame → List Char → Option (Value × List Char)
  | 0, _, _ => none
  | n + 1, frames, s => do
    match ← begin? frames s with
    | .done v r => some (v, r)
    | .next frames r => values? n frames r

def value? (s : List Char) : Option (Value × List Char) := values? (s.length + 1) [] s

/-- What has been read: all entries, and the header under which the next ones go. -/
structure Document where
  entries : Entries := []
  header : List String := []

namespace Document

def insert (d : Document) (path : List String) (key : String) (v : Value) : Option Document := do
  let entries ← d.entries.alter false (fun _ es => es.insert path key v) d.header .header
  return { d with entries }

/-- One line that is not blank. -/
def line? (d : Document) : List Char → Option (Document × List Char)
  | '[' :: '[' :: r => do
    let (path, key, r) ← key? r
    match r with
    | ']' :: ']' :: r =>
      return (⟨← d.entries.openItem path key, path ++ [key]⟩, ← lineEnd? r)
    | _ => none
  | '[' :: r => do
    let (path, key, r) ← key? r
    match r with
    | ']' :: r => return (⟨← d.entries.openTable path key, path ++ [key]⟩, ← lineEnd? r)
    | _ => none
  | s => do
    let (path, key, r) ← keyEquals? s
    let (v, r) ← value? r
    return (← d.insert path key v, ← lineEnd? r)

/-- Each turn consumes a character, or there are none left. -/
def lines? : Nat → Document → List Char → Option Document
  | 0, _, _ => none
  | n + 1, d, s =>
    match dropBlanks s with
    | [] => some d
    | c :: r =>
      match lineEnd? (c :: r) with
      | some r => lines? n d r
      | none => do
        let (d, r) ← d.line? (c :: r)
        lines? n d r

/-- The entries of a whole document. A byte order mark at its front is dropped. -/
def parse? (s : List Char) : Option Entries := do
  let s := if s.head? = some '\uFEFF' then s.tail else s
  return (← lines? (s.length + 1) {} s).entries

end Document

end LoadReport.Toml
