import LoadReport.Log.Directive

/-! # Log filters

A filter is a list of directives. The most specific directive that applies to a record decides
whether it is shown; a record to which none applies is not.
-/

namespace LoadReport.Log

abbrev Filter := List Directive

namespace Filter

/-- Of the directives that apply, the most specific one, and the last of several. -/
def decisive? (f : Filter) (r : Record) : Option Directive :=
  (f.filter (·.applies r)).foldl
    (fun best d => match best with
      | none => some d
      | some b => if d.isAsSpecific b then some d else some b)
    none

def shows (f : Filter) (r : Record) : Bool :=
  match f.decisive? r with
  | none => false
  | some d => r.level.rank ≤ d.rank

/-- Without further directions: information and worse, or all but traces if asked to be verbose. -/
def standard (verbose : Bool) : Filter :=
  let rank := if verbose then Level.debug.rank else Level.info.rank
  [⟨some "analyze", .anywhere, rank⟩, ⟨some "k6_analyze", .anywhere, rank⟩]

/-- Directives are separated by commas. One that cannot be read spoils the whole filter. A filter
without directives shows errors only. -/
def parse? (s : String) : Option Filter :=
  let ps := (s.toList.splitOn ',').filter (· ≠ [])
  if ps = [] then some [⟨none, .anywhere, Level.error.rank⟩]
  else ps.mapM Directive.parse?

end Filter

end LoadReport.Log
