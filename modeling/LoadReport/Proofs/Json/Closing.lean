import LoadReport.Proofs.Json.Soundness

/-! # Where an object ends

Outside of strings, every phrase closes the brackets that it opens. So the brace that closes an
object is found by counting brackets, whatever follows it, and no text goes on after an object.
-/

namespace LoadReport.Json

open Grammar

variable {c : Char} {r q x : List Char} {p : Phrase}

inductive Mode where
  | outside
  | inside
  | escaped

/-- What follows the bracket that closes an open one, when `depth` more are open inside of it. -/
def afterClose? : Mode → ℕ → List Char → Option (List Char)
  | _, _, [] => none
  | .outside, depth, c :: r =>
    if c = '"' then afterClose? .inside depth r
    else if c = '[' || c = '\x7b' then afterClose? .outside (depth + 1) r
    else if c = ']' || c = '\x7d' then
      match depth with
      | 0 => some r
      | depth + 1 => afterClose? .outside depth r
    else afterClose? .outside depth r
  | .inside, depth, c :: r =>
    if c = '"' then afterClose? .outside depth r
    else if c = '\\' then afterClose? .escaped depth r
    else afterClose? .inside depth r
  | .escaped, depth, _ :: r => afterClose? .inside depth r

/-- What has been found does not depend on what is added to the text. -/
theorem afterClose?_append {mode : Mode} {depth : ℕ} (h : afterClose? mode depth r = some q)
    (x : List Char) : afterClose? mode depth (r ++ x) = some (q ++ x) := by
  fun_induction afterClose? mode depth r <;> simp_all [afterClose?]

/-- Neither a quote nor a bracket. -/
def isPlain (c : Char) : Bool := c ∉ ['"', '[', '\x7b', ']', '\x7d']

theorem afterClose?_plain (h : isPlain c) (depth : ℕ) (r : List Char) :
    afterClose? .outside depth (c :: r) = afterClose? .outside depth r := by
  simp only [isPlain, List.mem_cons, List.not_mem_nil, or_false, not_or, decide_eq_true_eq] at h
  simp [afterClose?, h]

theorem isPlain_of_isBlank (h : Token.isBlank c) : isPlain c := by
  simp only [Token.isBlank, Bool.or_eq_true, decide_eq_true_eq] at h
  rcases h with ((rfl | rfl) | rfl) | rfl <;> decide

theorem isPlain_of_isDigit (h : isDigit c) : isPlain c := by
  simp only [isPlain, List.mem_cons, List.not_mem_nil, or_false, decide_eq_true_eq]
  rintro (rfl | rfl | rfl | rfl | rfl) <;> exact absurd h (by decide)

theorem ne_of_isHexDigit (h : isHexDigit c) : c ≠ '"' ∧ c ≠ '\\' := by
  constructor <;> rintro rfl <;> exact absurd h (by decide)

/-- A phrase that opens no bracket, or closes all brackets that it opens. -/
def Balanced (r q : List Char) : Prop :=
  ∀ depth, afterClose? .outside depth r = afterClose? .outside depth q

namespace Balanced

theorem trans {a : List Char} (h : Balanced r a) (h' : Balanced a q) : Balanced r q :=
  fun depth => (h depth).trans (h' depth)

theorem plain (hc : isPlain c) (h : Balanced r q) : Balanced (c :: r) q :=
  fun depth => (afterClose?_plain hc depth r).trans (h depth)

theorem blanks (h : Blanks r q) : Balanced r q := by
  induction h with
  | nil => exact fun _ => rfl
  | cons hc _ ih => exact plain (isPlain_of_isBlank hc) ih

theorem digits (h : Digits r q) : Balanced r q := by
  induction h with
  | last hc => exact plain (isPlain_of_isDigit hc) fun _ => rfl
  | cons hc _ ih => exact plain (isPlain_of_isDigit hc) ih

theorem whole (h : Whole r q) : Balanced r q := by
  cases h with
  | digit hc => exact plain (isPlain_of_isDigit hc) fun _ => rfl
  | digits hc _ h => exact plain (isPlain_of_isDigit hc) (digits h)

theorem fraction (h : Fraction r q) : Balanced r q := by
  cases h with
  | none => exact fun _ => rfl
  | some h => exact plain (by decide) (digits h)

theorem exponent (h : Exponent r q) : Balanced r q := by
  cases h with
  | none => exact fun _ => rfl
  | unsigned he h => exact plain (by rcases he with rfl | rfl <;> decide) (digits h)
  | signed he hsign h =>
    exact plain (by rcases he with rfl | rfl <;> decide)
      (plain (by rcases hsign with rfl | rfl <;> decide) (digits h))

theorem number (h : Grammar.Number r q) : Balanced r q := by
  cases h with
  | positive hw hf he => exact (whole hw).trans ((fraction hf).trans (exponent he))
  | negative hw hf he =>
    exact plain (by decide) ((whole hw).trans ((fraction hf).trans (exponent he)))

theorem string (h : Characters r q) : Balanced ('"' :: r) q := by
  have hinside : ∀ depth, afterClose? .inside depth r = afterClose? .outside depth q := by
    induction h with
    | close => exact fun _ => rfl
    | plain _ hquote hslash _ ih => simpa [afterClose?, hquote, hslash] using ih
    | escape _ _ ih => simpa [afterClose?] using ih
    | unit ha hb hc hd _ ih =>
      simpa [afterClose?, ne_of_isHexDigit ha, ne_of_isHexDigit hb, ne_of_isHexDigit hc,
        ne_of_isHexDigit hd] using ih
  exact hinside

theorem brackets (h : Balanced r (']' :: q)) : Balanced ('[' :: r) q := fun depth => h (depth + 1)

theorem braces (h : Balanced r ('\x7d' :: q)) : Balanced ('\x7b' :: r) q :=
  fun depth => h (depth + 1)

theorem derives (h : Derives p r q) : Balanced r q := by
  induction h with
  | null | true | false => exact fun _ => rfl
  | number h => exact number h
  | string h => exact string h
  | emptyArray h => exact brackets (blanks h)
  | array _ ih => exact brackets ih
  | emptyObject h => exact braces (blanks h)
  | object _ ih => exact braces ih
  | element hbefore _ hafter ih => exact (blanks hbefore).trans (ih.trans (blanks hafter))
  | lastElement _ ih => exact ih
  | elements _ _ ih ihs => exact ih.trans (plain (by decide) ihs)
  | member hbefore hname hcolon _ ih =>
    exact (blanks hbefore).trans ((string hname).trans ((blanks hcolon).trans
      (plain (by decide) ih)))
  | lastMember _ ih => exact ih
  | members _ _ ih ihs => exact ih.trans (plain (by decide) ihs)

end Balanced

theorem afterClose?_object (h : Derives .value ('\x7b' :: r) q) :
    afterClose? .outside 0 r = some q := by
  rcases h.object_body with h | h
  · exact Balanced.blanks h 0
  · exact Balanced.derives h 0

/-- An object is followed by nothing but blanks in every JSON text. -/
theorem isBlank_of_valid_append {s : List Char} {ms : List (String × Json)}
    (h : parse? s = some (.object ms)) (hx : Valid (s ++ x)) : ∀ c ∈ x, Token.isBlank c := by
  obtain ⟨a, b, ha, hobject, _⟩ := writes_of_parse? h
  obtain ⟨r, rfl⟩ := hobject.brace ms rfl
  cases hx with
  | @element _ a' b' _ ha' hvalue hb' =>
    obtain ⟨c, r', rfl, hc⟩ := hvalue.value_head
    -- Both texts begin with the same brace, and one bracket closes it in both.
    have heq : c :: r' = '\x7b' :: (r ++ x) :=
      (ha'.eq_dropWhile hc).symm.trans ((ha.append x).eq_dropWhile (by decide))
    obtain ⟨rfl, rfl⟩ := List.cons.inj heq
    have hclose : afterClose? .outside 0 (r ++ x) = some (b ++ x) :=
      afterClose?_append (afterClose?_object hobject.derives) x
    obtain rfl : b' = b ++ x := Option.some.inj ((afterClose?_object hvalue).symm.trans hclose)
    exact fun c hc => Blanks.nil_iff.mp hb' c (List.mem_append_right b hc)

end LoadReport.Json
