import LoadReport.Digit
import LoadReport.Json.Number

/-! # Tokens of JSON

Every token is at least one character long, so a text has at most as many tokens as characters.
-/

namespace LoadReport.Json

inductive Token where
  | openBracket
  | closeBracket
  | openBrace
  | closeBrace
  | comma
  | colon
  | null
  | bool (b : Bool)
  | number (n : Number)
  | string (s : String)

namespace Token

def isBlank (c : Char) : Bool := c = ' ' || c = '\t' || c = '\n' || c = '\r'

def hexUnit? (a b c d : Char) : Option Nat := do
  return Digit.number 16
    [← Digit.hexValue? a, ← Digit.hexValue? b, ← Digit.hexValue? c, ← Digit.hexValue? d]

def simpleEscape? : Char → Option Char
  | '"' => some '"'
  | '\\' => some '\\'
  | '/' => some '/'
  | 'b' => some '\x08'
  | 'f' => some '\x0c'
  | 'n' => some '\n'
  | 'r' => some '\r'
  | 't' => some '\t'
  | _ => none

/-- What stands for a character in a string: the character itself, or a UTF-16 unit. -/
inductive Piece where
  | char (c : Char)
  | unit (u : Nat)

/-- The pieces of a string after its opening quote, and what follows the closing quote. Control
characters must be escaped. -/
def pieces? : List Char → Option (List Piece × List Char)
  | [] => none
  | '"' :: r => some ([], r)
  | '\\' :: 'u' :: a :: b :: c :: d :: r => do
    let u ← hexUnit? a b c d
    let (ps, r) ← pieces? r
    return (.unit u :: ps, r)
  | '\\' :: e :: r => do
    let c ← simpleEscape? e
    let (ps, r) ← pieces? r
    return (.char c :: ps, r)
  | c :: r =>
    if c < ' ' || c = '\\' then none
    else do
      let (ps, r) ← pieces? r
      return (.char c :: ps, r)

def isHighSurrogate (u : Nat) : Bool := 0xD800 ≤ u && u < 0xDC00

def isLowSurrogate (u : Nat) : Bool := 0xDC00 ≤ u && u < 0xE000

/-- A high surrogate makes one character with the low surrogate after it; no surrogate stands
alone. -/
def join? : List Piece → Option (List Char)
  | [] => some []
  | .char c :: ps => (join? ps).map (c :: ·)
  | [.unit u] => if isHighSurrogate u || isLowSurrogate u then none else some [Char.ofNat u]
  | .unit u :: .char c :: ps =>
    if isHighSurrogate u || isLowSurrogate u then none
    else (join? ps).map (Char.ofNat u :: c :: ·)
  | .unit u :: .unit v :: ps =>
    if isHighSurrogate u then
      if isLowSurrogate v then
        (join? ps).map (Char.ofNat (0x10000 + (u - 0xD800) * 0x400 + (v - 0xDC00)) :: ·)
      else none
    else if isLowSurrogate u then none
    else (join? (.unit v :: ps)).map (Char.ofNat u :: ·)

def string? (s : List Char) : Option (Token × List Char) := do
  let (ps, r) ← pieces? s
  let cs ← join? ps
  return (.string (String.ofList cs), r)

def digits (s : List Char) : List Nat × List Char :=
  ((s.takeWhile (Digit.value? · |>.isSome)).filterMap Digit.value?,
    s.dropWhile (Digit.value? · |>.isSome))

/-- A single zero, or digits that begin with another one. -/
def wholePart? (s : List Char) : Option (List Nat × List Char) :=
  match digits s with
  | ([], _) => none
  | (0 :: _ :: _, _) => none
  | (ds, r) => some (ds, r)

/-- A point must be followed by a digit. -/
def fraction? : List Char → Option (List Nat × List Char)
  | '.' :: s =>
    match digits s with
    | ([], _) => none
    | (ds, r) => some (ds, r)
  | s => some ([], s)

def exponentDigits? (negative : Bool) (s : List Char) : Option (Option Int × List Char) :=
  match digits s with
  | ([], _) => none
  | (ds, r) =>
    let n : Int := Digit.number 10 ds
    some (some (if negative then -n else n), r)

def exponent? : List Char → Option (Option Int × List Char)
  | 'e' :: '+' :: s | 'E' :: '+' :: s => exponentDigits? false s
  | 'e' :: '-' :: s | 'E' :: '-' :: s => exponentDigits? true s
  | 'e' :: s | 'E' :: s => exponentDigits? false s
  | s => some (none, s)

def literal? (negative : Bool) (s : List Char) : Option (Literal × List Char) := do
  let (whole, s) ← wholePart? s
  let (fraction, s) ← fraction? s
  let (exponent, s) ← exponent? s
  return (⟨negative, whole, fraction, exponent⟩, s)

def number? (negative : Bool) (s : List Char) : Option (Token × List Char) := do
  let (l, r) ← literal? negative s
  let n ← l.number?
  return (.number n, r)

/-- The first token of a text that does not begin with a blank. -/
def next? : List Char → Option (Token × List Char)
  | [] => none
  | '[' :: r => some (.openBracket, r)
  | ']' :: r => some (.closeBracket, r)
  | '\x7b' :: r => some (.openBrace, r)
  | '\x7d' :: r => some (.closeBrace, r)
  | ',' :: r => some (.comma, r)
  | ':' :: r => some (.colon, r)
  | 'n' :: 'u' :: 'l' :: 'l' :: r => some (.null, r)
  | 't' :: 'r' :: 'u' :: 'e' :: r => some (.bool true, r)
  | 'f' :: 'a' :: 'l' :: 's' :: 'e' :: r => some (.bool false, r)
  | '"' :: r => string? r
  | '-' :: r => number? true r
  | c :: r => number? false (c :: r)

theorem pieces?_length_lt {s r : List Char} {ps : List Piece} (h : pieces? s = some (ps, r)) :
    r.length < s.length := by
  fun_induction pieces? s generalizing ps r with
  | case1 => simp at h
  | case2 r' => simp_all
  | case3 a b c d r' ih =>
    simp only [Option.bind_eq_bind, Option.bind_eq_some_iff] at h
    obtain ⟨u, -, q, hq, he⟩ := h
    have := ih hq
    simp_all
    omega
  | case4 e r' _ ih =>
    simp only [Option.bind_eq_bind, Option.bind_eq_some_iff] at h
    obtain ⟨c, -, q, hq, he⟩ := h
    have := ih hq
    simp_all
    omega
  | case5 => simp_all
  | case6 c r' _ _ _ _ ih =>
    simp only [Option.bind_eq_bind, Option.bind_eq_some_iff] at h
    obtain ⟨q, hq, he⟩ := h
    have := ih hq
    simp_all
    omega

theorem digits_length (s : List Char) :
    (digits s).2.length ≤ s.length ∧ ((digits s).1 ≠ [] → (digits s).2.length < s.length) := by
  have hs := congrArg List.length
    (List.takeWhile_append_dropWhile (p := (Digit.value? · |>.isSome)) (l := s))
  rw [List.length_append] at hs
  constructor
  · simp only [digits]; omega
  · intro h
    have : s.takeWhile (Digit.value? · |>.isSome) ≠ [] := by
      intro h'
      simp [digits, h'] at h
    have := List.length_pos_iff.2 this
    simp only [digits]; omega

theorem wholePart?_length_lt {s r : List Char} {ds : List Nat} (h : wholePart? s = some (ds, r)) :
    r.length < s.length := by
  have hd := digits_length s
  grind [wholePart?]

theorem fraction?_length_le {s r : List Char} {ds : List Nat} (h : fraction? s = some (ds, r)) :
    r.length ≤ s.length := by
  unfold fraction? at h
  split at h
  · rename_i t
    have := digits_length t
    grind
  · simp_all

theorem exponentDigits?_length_le {n : Bool} {s r : List Char} {e : Option Int}
    (h : exponentDigits? n s = some (e, r)) : r.length ≤ s.length := by
  have := digits_length s
  grind [exponentDigits?]

theorem exponent?_length_le {s r : List Char} {e : Option Int} (h : exponent? s = some (e, r)) :
    r.length ≤ s.length := by
  unfold exponent? at h
  split at h <;> first
    | (have hr := exponentDigits?_length_le h; simp; omega)
    | simp_all

theorem number?_length_lt {n : Bool} {s r : List Char} {t : Token}
    (h : number? n s = some (t, r)) : r.length < s.length := by
  simp only [number?, literal?, Option.bind_eq_bind, Option.bind_eq_some_iff] at h
  obtain ⟨⟨l, r₀⟩, ⟨⟨ds, r₁⟩, h₁, ⟨fs, r₂⟩, h₂, ⟨e, r₃⟩, h₃, hl⟩, v, -, he⟩ := h
  have := wholePart?_length_lt h₁
  have := fraction?_length_le h₂
  have := exponent?_length_le h₃
  simp_all
  omega

theorem string?_length_lt {s r : List Char} {t : Token} (h : string? s = some (t, r)) :
    r.length < s.length := by
  simp only [string?, Option.bind_eq_bind, Option.bind_eq_some_iff] at h
  obtain ⟨⟨ps, r'⟩, h₁, cs, -, he⟩ := h
  have := pieces?_length_lt h₁
  simp_all

theorem next?_length_lt {s r : List Char} {t : Token} (h : next? s = some (t, r)) :
    r.length < s.length := by
  unfold next? at h
  split at h <;> first
    | (have hr := string?_length_lt h; simp; omega)
    | (have hr := number?_length_lt h; simp_all; omega)
    | (have hr := number?_length_lt h; simp_all)
    | grind

def all? (s : List Char) : Option (List Token) :=
  match hs : s.dropWhile isBlank with
  | [] => some []
  | c :: cs =>
    match ht : next? (c :: cs) with
    | none => none
    | some (t, r) =>
      have : r.length < s.length := by
        have := next?_length_lt ht
        have := (List.dropWhile_suffix (l := s) isBlank).length_le
        grind
      (all? r).map (t :: ·)
termination_by s.length

end Token

end LoadReport.Json
