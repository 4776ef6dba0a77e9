/-! # Paths

A path is a text whose segments are separated by slashes. Empty segments and segments `.` stand for
the directory before them; the last segment that is none of these is the file name.
-/

namespace LoadReport.Path

def segments (p : List Char) : List (List Char) := p.splitOn '/'

def join (ss : List (List Char)) : List Char := ['/'].intercalate ss

/-- Drops the segments at the end that name nothing, given in reverse. A leading `.` stays. -/
def dropIdle : List (List Char) → List (List Char)
  | [] => []
  | s :: ss => if s = [] || (s = ['.'] && ss ≠ []) then dropIdle ss else s :: ss

def splitName? (p : List Char) : Option (List (List Char) × List Char) :=
  match dropIdle (segments p).reverse with
  | [] => none
  | name :: before =>
    if name = ['.'] || name = ['.', '.'] then none else some (before.reverse, name)

/-- The parts of a file name before and after its last dot. A dot at the very front does not
count. -/
def splitExtension (name : List Char) : List Char × Option (List Char) :=
  let after := (name.reverse.takeWhile (· ≠ '.')).reverse
  let stem := name.take (name.length - after.length - 1)
  if stem = [] then (name, none) else (stem, some after)

def extension? (p : List Char) : Option (List Char) :=
  (splitName? p).bind fun (_, name) => (splitExtension name).2

/-- Cuts a path behind the stem of its file name and adds an extension. A path without a file name
is left as it is. -/
def setExtension (p ext : List Char) : List Char :=
  match splitName? p with
  | none => p
  | some (before, name) =>
    join (before ++ [(splitExtension name).1]) ++ (if ext = [] then [] else '.' :: ext)

/-- Replaces the extension. As many characters as the old extension has are cut off the end of the
path first, whatever follows the file name there. -/
def withExtension (p ext : List Char) : List Char :=
  match extension? p with
  | none => setExtension p ext
  | some old => setExtension (p.take (p.length - old.length)) ext

/-- The report file beside a results file: a `json` extension is replaced, any other path is
extended, so the results file itself is not written over. -/
def output (input ext : String) : String :=
  String.ofList <|
    if extension? input.toList = some "json".toList then withExtension input.toList ext.toList
    else input.toList ++ '.' :: ext.toList

end LoadReport.Path
