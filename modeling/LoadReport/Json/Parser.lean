import LoadReport.Json.Token

/-! # Reading JSON

A machine takes one token after the other. Its state holds the containers that are still open, the
innermost first, so the nesting is bounded by the length of a list.
-/

namespace LoadReport.Json

inductive Frame where
  /-- The items so far, the latest first. -/
  | array (items : List Json)
  | object (members : List (String × Json)) (name : String)

/-- What the machine waits for, inside the given open containers. -/
inductive State where
  | value (frames : List Frame)
  | itemOrClose (frames : List Frame)
  | nameOrClose (frames : List Frame)
  | name (members : List (String × Json)) (frames : List Frame)
  | colon (members : List (String × Json)) (name : String) (frames : List Frame)
  /-- A complete value; more may follow only in a container. -/
  | complete (v : Json) (frames : List Frame)

def maxDepth : Nat := 127

namespace State

def begin? (frames : List Frame) : Token → Option State
  | .null => some (.complete .null frames)
  | .bool b => some (.complete (.bool b) frames)
  | .number n => some (.complete (.number n) frames)
  | .string s => some (.complete (.string s) frames)
  | .openBracket => if frames.length < maxDepth then some (.itemOrClose frames) else none
  | .openBrace => if frames.length < maxDepth then some (.nameOrClose frames) else none
  | _ => none

def step? : State → Token → Option State
  | .value frames, t => begin? frames t
  | .itemOrClose frames, .closeBracket => some (.complete (.array []) frames)
  | .itemOrClose frames, t => begin? (.array [] :: frames) t
  | .nameOrClose frames, .closeBrace => some (.complete (.object []) frames)
  | .nameOrClose frames, .string n => some (.colon [] n frames)
  | .name members frames, .string n => some (.colon members n frames)
  | .colon members n frames, .colon => some (.value (.object members n :: frames))
  | .complete v (.array items :: frames), .comma => some (.value (.array (v :: items) :: frames))
  | .complete v (.array items :: frames), .closeBracket =>
    some (.complete (.array (v :: items).reverse) frames)
  | .complete v (.object members n :: frames), .comma =>
    some (.name (insertMember n v members) frames)
  | .complete v (.object members n :: frames), .closeBrace =>
    some (.complete (.object (insertMember n v members)) frames)
  | _, _ => none

def result? : State → Option Json
  | .complete v [] => some v
  | _ => none

end State

def parse? (s : List Char) : Option Json := do
  let state ← (← Token.all? s).foldlM State.step? (.value [])
  state.result?

end LoadReport.Json
