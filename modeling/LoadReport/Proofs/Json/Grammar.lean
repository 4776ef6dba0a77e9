import LoadReport.Json.Token

/-! # The grammar of JSON

A phrase is told by what a text is before it and after it: a phrase stands at the front of a text,
and the rest follows it. The grammar says nothing about the values of phrases, and it sets no bounds
on numbers or on nesting.
-/

namespace LoadReport.Json.Grammar

inductive Blanks : List Char → List Char → Prop
  | nil {r : List Char} : Blanks r r
  | cons {c : Char} {r q : List Char} (hc : Token.isBlank c) (h : Blanks r q) : Blanks (c :: r) q

def isDigit (c : Char) : Bool := (Digit.value? c).isSome

def isHexDigit (c : Char) : Bool := (Digit.hexValue? c).isSome

inductive Digits : List Char → List Char → Prop
  | last {c : Char} {r : List Char} (hc : isDigit c) : Digits (c :: r) r
  | cons {c : Char} {r q : List Char} (hc : isDigit c) (h : Digits r q) : Digits (c :: r) q

/-- A single digit, or digits that do not begin with zero. -/
inductive Whole : List Char → List Char → Prop
  | digit {c : Char} {r : List Char} (hc : isDigit c) : Whole (c :: r) r
  | digits {c : Char} {r q : List Char} (hc : isDigit c) (hne : c ≠ '0') (h : Digits r q) :
    Whole (c :: r) q

inductive Fraction : List Char → List Char → Prop
  | none {r : List Char} : Fraction r r
  | some {r q : List Char} (h : Digits r q) : Fraction ('.' :: r) q

inductive Exponent : List Char → List Char → Prop
  | none {r : List Char} : Exponent r r
  | unsigned {e : Char} {r q : List Char} (he : e = 'e' ∨ e = 'E') (h : Digits r q) :
    Exponent (e :: r) q
  | signed {e sign : Char} {r q : List Char} (he : e = 'e' ∨ e = 'E')
      (hsign : sign = '+' ∨ sign = '-') (h : Digits r q) :
    Exponent (e :: sign :: r) q

inductive Number : List Char → List Char → Prop
  | positive {r a b q : List Char} (hw : Whole r a) (hf : Fraction a b) (he : Exponent b q) :
    Number r q
  | negative {r a b q : List Char} (hw : Whole r a) (hf : Fraction a b) (he : Exponent b q) :
    Number ('-' :: r) q

/-- The characters of a string and its closing quote. -/
inductive Characters : List Char → List Char → Prop
  | close {r : List Char} : Characters ('"' :: r) r
  | plain {c : Char} {r q : List Char} (hc : ' ' ≤ c) (hquote : c ≠ '"') (hslash : c ≠ '\\')
      (h : Characters r q) : Characters (c :: r) q
  | escape {c : Char} {r q : List Char}
      (hc : c ∈ ['"', '\\', '/', 'b', 'f', 'n', 'r', 't']) (h : Characters r q) :
    Characters ('\\' :: c :: r) q
  | unit {a b c d : Char} {r q : List Char} (ha : isHexDigit a) (hb : isHexDigit b)
      (hc : isHexDigit c) (hd : isHexDigit d) (h : Characters r q) :
    Characters ('\\' :: 'u' :: a :: b :: c :: d :: r) q

inductive Phrase where
  | value
  | element
  | elements
  | member
  | members

inductive Derives : Phrase → List Char → List Char → Prop
  | null {r : List Char} : Derives .value ('n' :: 'u' :: 'l' :: 'l' :: r) r
  | true {r : List Char} : Derives .value ('t' :: 'r' :: 'u' :: 'e' :: r) r
  | false {r : List Char} : Derives .value ('f' :: 'a' :: 'l' :: 's' :: 'e' :: r) r
  | number {r q : List Char} (h : Number r q) : Derives .value r q
  | string {r q : List Char} (h : Characters r q) : Derives .value ('"' :: r) q
  | emptyArray {r q : List Char} (h : Blanks r (']' :: q)) : Derives .value ('[' :: r) q
  | array {r q : List Char} (h : Derives .elements r (']' :: q)) : Derives .value ('[' :: r) q
  | emptyObject {r q : List Char} (h : Blanks r ('\x7d' :: q)) : Derives .value ('\x7b' :: r) q
  | object {r q : List Char} (h : Derives .members r ('\x7d' :: q)) : Derives .value ('\x7b' :: r) q
  | element {r a b q : List Char} (hbefore : Blanks r a) (h : Derives .value a b)
      (hafter : Blanks b q) : Derives .element r q
  | lastElement {r q : List Char} (h : Derives .element r q) : Derives .elements r q
  | elements {r a q : List Char} (h : Derives .element r (',' :: a)) (hs : Derives .elements a q) :
    Derives .elements r q
  | member {r a b c q : List Char} (hbefore : Blanks r ('"' :: a)) (hname : Characters a b)
      (hcolon : Blanks b (':' :: c)) (h : Derives .element c q) : Derives .member r q
  | lastMember {r q : List Char} (h : Derives .member r q) : Derives .members r q
  | members {r a q : List Char} (h : Derives .member r (',' :: a)) (hs : Derives .members a q) :
    Derives .members r q

/-- A whole text. -/
def Valid (s : List Char) : Prop := Derives .element s []

variable {c : Char} {r a q : List Char}

namespace Blanks

theorem dropWhile (r : List Char) : Blanks r (r.dropWhile Token.isBlank) := by
  induction r with
  | nil => exact .nil
  | cons c r ih =>
    by_cases hc : Token.isBlank c
    · rw [List.dropWhile_cons_of_pos hc]
      exact .cons hc ih
    · rw [List.dropWhile_cons_of_neg hc]
      exact .nil

/-- What follows blanks and does not begin with one is what follows all blanks. -/
theorem eq_dropWhile (h : Blanks r (c :: q)) (hc : ¬ Token.isBlank c) :
    r.dropWhile Token.isBlank = c :: q := by
  generalize ha : c :: q = a at h
  induction h with
  | nil => rw [← ha, List.dropWhile_cons_of_neg hc]
  | cons hd _ ih => rw [List.dropWhile_cons_of_pos hd, ih ha]

theorem nil_iff : Blanks r [] ↔ ∀ c ∈ r, Token.isBlank c := by
  constructor
  · intro h
    generalize hq : [] = q at h
    induction h with
    | nil => exact hq ▸ List.forall_mem_nil _
    | cons hc _ ih => exact List.forall_mem_cons.mpr ⟨hc, ih hq⟩
  · intro h
    induction r with
    | nil => exact .nil
    | cons c r ih =>
      obtain ⟨hc, hr⟩ := List.forall_mem_cons.mp h
      exact .cons hc (ih hr)

theorem append (h : Blanks r q) (x : List Char) : Blanks (r ++ x) (q ++ x) := by
  induction h with
  | nil => exact .nil
  | cons hc _ ih => exact .cons hc ih

end Blanks

theorem not_blank_of_isDigit (h : isDigit c) : ¬ Token.isBlank c := by
  intro hc
  simp only [Token.isBlank, Bool.or_eq_true, decide_eq_true_eq] at hc
  rcases hc with ((rfl | rfl) | rfl) | rfl <;> exact absurd h (by decide)

theorem Whole.head (h : Whole r q) : ∃ c a, r = c :: a ∧ isDigit c := by
  cases h with
  | digit hc => exact ⟨_, _, rfl, hc⟩
  | digits hc => exact ⟨_, _, rfl, hc⟩

/-- A number begins with a digit or with a minus sign. -/
theorem Number.head (h : Number r q) : ∃ c a, r = c :: a ∧ (isDigit c ∨ c = '-') := by
  cases h with
  | positive hw =>
    obtain ⟨c, a, rfl, hc⟩ := hw.head
    exact ⟨c, a, rfl, .inl hc⟩
  | negative => exact ⟨_, _, rfl, .inr rfl⟩

/-- A value does not begin with a blank. -/
theorem Derives.value_head (h : Derives .value r q) : ∃ c a, r = c :: a ∧ ¬ Token.isBlank c := by
  cases h with
  | number h =>
    obtain ⟨c, a, rfl, hc | rfl⟩ := h.head
    · exact ⟨c, a, rfl, not_blank_of_isDigit hc⟩
    · exact ⟨_, _, rfl, by decide⟩
  | _ => exact ⟨_, _, rfl, by decide⟩

/-- A value that begins with a brace is an object. -/
theorem Derives.object_body (h : Derives .value ('\x7b' :: r) q) :
    Blanks r ('\x7d' :: q) ∨ Derives .members r ('\x7d' :: q) := by
  cases h with
  | number h =>
    obtain ⟨c, a, he, hc | hc⟩ := h.head
    · obtain rfl := (List.cons.inj he).1
      exact absurd hc (by decide)
    · exact absurd ((List.cons.inj he).1.trans hc) (by decide)
  | emptyObject h => exact .inl h
  | object h => exact .inr h

end LoadReport.Json.Grammar
