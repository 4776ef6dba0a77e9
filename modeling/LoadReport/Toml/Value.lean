/-! # TOML values and tables

How a table came about decides what may still be added to it.
-/

namespace LoadReport.Toml

inductive Origin where
  /-- Written in braces; nothing can be added. -/
  | inline
  /-- Named by a header of its own. -/
  | header
  /-- Named on the way to another table's header. -/
  | implied
  /-- Named on the way to a dotted key. -/
  | dotted
  deriving DecidableEq

/-- Numbers other than integers, dates and times are kept as written. -/
inductive Value where
  | string (s : String)
  | integer (n : Int)
  | float (literal : String)
  | boolean (b : Bool)
  | dateTime (literal : String)
  | array (items : List Value)
  | table (origin : Origin) (entries : List (String × Value))
  /-- An array of tables that are named by headers. -/
  | tables (tables : List (List (String × Value)))

abbrev Entries := List (String × Value)

namespace Entries

def replace (key : String) (v : Value) (es : Entries) : Entries :=
  es.map fun (k, w) => if k = key then (k, v) else (k, w)

/-- Changes the table at the end of a path; missing tables on the way are added. With an array of
tables on the way, the path goes on in the last of them. A dotted key cannot pass through a table
that has a header. -/
def alter (dotted : Bool) (f : Origin → Entries → Option Entries) :
    List String → Origin → Entries → Option Entries
  | [], origin, es => f origin es
  | key :: path, _, es =>
    match es.lookup key with
    | none => do
      let origin : Origin := if dotted then .dotted else .implied
      let sub ← alter dotted f path origin []
      return es ++ [(key, .table origin sub)]
    | some (.table origin sub) =>
      if origin = .inline || (dotted && origin = .header) then none
      else do
        let sub ← alter dotted f path origin sub
        return replace key (.table origin sub) es
    | some (.tables ts) =>
      match ts.getLast? with
      | none => none
      | some last => do
        let last ← alter dotted f path .header last
        return replace key (.tables (ts.dropLast ++ [last])) es
    | some _ => none

/-- Adds a value under a dotted key. A dotted key may end only in a table that dotted keys made, a
plain key only in one that they did not. -/
def insert (path : List String) (key : String) (v : Value) (es : Entries) : Option Entries :=
  alter true
    (fun origin es =>
      if (origin == .dotted) == path.isEmpty || (es.lookup key).isSome then none
      else some (es ++ [(key, v)]))
    path .header es

def openTable (path : List String) (key : String) (es : Entries) : Option Entries :=
  alter false
    (fun _ es =>
      match es.lookup key with
      | none => some (es ++ [(key, .table .header [])])
      | some (.table .implied sub) => some (replace key (.table .header sub) es)
      | some _ => none)
    path .header es

def openItem (path : List String) (key : String) (es : Entries) : Option Entries :=
  alter false
    (fun _ es =>
      match es.lookup key with
      | none => some (es ++ [(key, .tables [[]])])
      | some (.tables ts) => some (replace key (.tables (ts ++ [[]])) es)
      | some _ => none)
    path .header es

end Entries

end LoadReport.Toml
