/-! # Reading markup

A page is read as a list of tags and of the characters between them. A tag goes from its opening to
its closing angle bracket.
-/

namespace LoadReport.Report.Markup

inductive Token
  | tag (name : String)
  | char (c : Char)
  deriving DecidableEq

namespace Token

def tag? : Token → Option String
  | .tag t => some t
  | .char _ => none

def char? : Token → Option Char
  | .tag _ => none
  | .char c => some c

end Token

/-- The part of a tag that has been read, the latest character first; none between tags. -/
abbrev State := Option (List Char)

def step : State → Char → State × List Token
  | none, c => if c = '<' then (some ['<'], []) else (none, [.char c])
  | some cs, c =>
    if c = '>' then (none, [.tag (String.ofList ('>' :: cs).reverse)]) else (some (c :: cs), [])

def tokensFrom : State → List Char → List Token
  | _, [] => []
  | q, c :: r => (step q c).2 ++ tokensFrom (step q c).1 r

def stateFrom (q : State) (cs : List Char) : State := cs.foldl (fun q c => (step q c).1) q

def tokens (s : String) : List Token := tokensFrom none s.toList

def tagsOf (ts : List Token) : List String := ts.filterMap Token.tag?

def tags (s : String) : List String := tagsOf (tokens s)

/-- What stands after each occurrence of the tag `a`, up to the next occurrence of the tag `b`. -/
def contents (a b : String) : List Token → List (List Token)
  | [] => []
  | t :: ts =>
    if t = .tag a then (ts.takeWhile (· ≠ .tag b)) :: contents a b ts else contents a b ts

def decodeEntities : List Char → List Char
  | '&' :: 'a' :: 'm' :: 'p' :: ';' :: r => '&' :: decodeEntities r
  | '&' :: 'l' :: 't' :: ';' :: r => '<' :: decodeEntities r
  | '&' :: 'g' :: 't' :: ';' :: r => '>' :: decodeEntities r
  | '&' :: 'q' :: 'u' :: 'o' :: 't' :: ';' :: r => '"' :: decodeEntities r
  | '&' :: '#' :: '3' :: '9' :: ';' :: r => '\'' :: decodeEntities r
  | c :: r => c :: decodeEntities r
  | [] => []

def textOf? (ts : List Token) : Option String :=
  (ts.mapM Token.char?).map (String.ofList ∘ decodeEntities)

end LoadReport.Report.Markup
