import LoadReport.Proofs.Json.Grammar
import Mathlib.Data.Nat.Notation

/-! # Tokens are phrases

Every token is written as the grammar says: digits, strings and the other tokens are taken off the
front of a text exactly where the grammar derives them.
-/

namespace LoadReport.Json.Token

open Grammar

variable {c : Char} {s r : List Char} {ds : List ℕ} {t : Token}

/-- A token at the front of a text. -/
inductive Lexeme : Token → List Char → List Char → Prop
  | openBracket {r : List Char} : Lexeme .openBracket ('[' :: r) r
  | closeBracket {r : List Char} : Lexeme .closeBracket (']' :: r) r
  | openBrace {r : List Char} : Lexeme .openBrace ('\x7b' :: r) r
  | closeBrace {r : List Char} : Lexeme .closeBrace ('\x7d' :: r) r
  | comma {r : List Char} : Lexeme .comma (',' :: r) r
  | colon {r : List Char} : Lexeme .colon (':' :: r) r
  | null {r : List Char} : Lexeme .null ('n' :: 'u' :: 'l' :: 'l' :: r) r
  | true {r : List Char} : Lexeme (.bool true) ('t' :: 'r' :: 'u' :: 'e' :: r) r
  | false {r : List Char} : Lexeme (.bool false) ('f' :: 'a' :: 'l' :: 's' :: 'e' :: r) r
  | number {n : Json.Number} {s r : List Char} (h : Grammar.Number s r) : Lexeme (.number n) s r
  | string {text : String} {s r : List Char} (h : Characters s r) :
    Lexeme (.string text) ('"' :: s) r

theorem digits_cons_of_none (h : Digit.value? c = none) : digits (c :: s) = ([], c :: s) := by
  simp [digits, h]

theorem digits_cons_of_some {d : ℕ} (h : Digit.value? c = some d) :
    digits (c :: s) = (d :: (digits s).1, (digits s).2) := by
  simp [digits, h]

theorem isDigit_of_value? {d : ℕ} (h : Digit.value? c = some d) : isDigit c := by
  rw [isDigit, h]
  rfl

theorem digits_cases (s : List Char) :
    (digits s).1 = [] ∧ (digits s).2 = s ∨ (digits s).1 ≠ [] ∧ Digits s (digits s).2 := by
  induction s with
  | nil => exact .inl ⟨rfl, rfl⟩
  | cons c s ih =>
    cases hc : Digit.value? c with
    | none =>
      rw [digits_cons_of_none hc]
      exact .inl ⟨rfl, rfl⟩
    | some d =>
      have hdigit := isDigit_of_value? hc
      rw [digits_cons_of_some hc]
      refine .inr ⟨List.cons_ne_nil _ _, ?_⟩
      rcases ih with ⟨_, hs⟩ | ⟨_, hs⟩
      · rw [hs]
        exact .last hdigit
      · exact .cons hdigit hs

theorem digits_of_ne_nil (h : digits s = (ds, r)) (hne : ds ≠ []) : Digits s r := by
  rcases digits_cases s with ⟨hnil, _⟩ | ⟨_, hs⟩
  · rw [h] at hnil
    exact absurd hnil hne
  · rwa [h] at hs

theorem of_wholePart? (h : wholePart? s = some (ds, r)) :
    digits s = (ds, r) ∧ ds ≠ [] ∧ ∀ e es, ds ≠ 0 :: e :: es := by
  unfold wholePart? at h
  split at h
  · cases h
  · cases h
  · rename_i hnil hzero hdigits
    cases h
    refine ⟨hdigits, ?_, ?_⟩
    · rintro rfl
      exact hnil rfl
    · rintro e es rfl
      exact hzero e es rfl

theorem whole_of_wholePart? (h : wholePart? s = some (ds, r)) : Whole s r := by
  obtain ⟨hdigits, hne, hzero⟩ := of_wholePart? h
  cases s with
  | nil => exact absurd (Prod.mk.inj hdigits).1.symm hne
  | cons c s =>
    cases hc : Digit.value? c with
    | none =>
      rw [digits_cons_of_none hc] at hdigits
      exact absurd (Prod.mk.inj hdigits).1.symm hne
    | some d =>
      rw [digits_cons_of_some hc] at hdigits
      obtain ⟨rfl, rfl⟩ := Prod.mk.inj hdigits
      rcases digits_cases s with ⟨_, hs⟩ | ⟨hrest, hs⟩
      · rw [hs]
        exact .digit (isDigit_of_value? hc)
      · have hnonzero : c ≠ '0' := by
          rintro rfl
          obtain rfl : 0 = d := Option.some.inj hc
          obtain ⟨e, es, he⟩ := List.exists_cons_of_ne_nil hrest
          exact hzero e es (congrArg _ he)
        exact .digits (isDigit_of_value? hc) hnonzero hs

theorem fraction_of_fraction? (h : fraction? s = some (ds, r)) : Fraction s r := by
  unfold fraction? at h
  split at h
  · split at h
    · simp at h
    · rename_i hne hd
      obtain ⟨rfl, rfl⟩ := Prod.mk.inj (Option.some.inj h)
      exact .some (digits_of_ne_nil hd hne)
  · obtain ⟨_, rfl⟩ := Prod.mk.inj (Option.some.inj h)
    exact .none

theorem digits_of_exponentDigits? {negative : Bool} {e : Option Int}
    (h : exponentDigits? negative s = some (e, r)) : Digits s r := by
  unfold exponentDigits? at h
  split at h
  · simp at h
  · rename_i hne hd
    obtain ⟨_, rfl⟩ := Prod.mk.inj (Option.some.inj h)
    exact digits_of_ne_nil hd hne

theorem exponent_of_exponent? {e : Option Int} (h : exponent? s = some (e, r)) : Exponent s r := by
  unfold exponent? at h
  split at h
  · exact .signed (.inl rfl) (.inl rfl) (digits_of_exponentDigits? h)
  · exact .signed (.inr rfl) (.inl rfl) (digits_of_exponentDigits? h)
  · exact .signed (.inl rfl) (.inr rfl) (digits_of_exponentDigits? h)
  · exact .signed (.inr rfl) (.inr rfl) (digits_of_exponentDigits? h)
  · exact .unsigned (.inl rfl) (digits_of_exponentDigits? h)
  · exact .unsigned (.inr rfl) (digits_of_exponentDigits? h)
  · obtain ⟨_, rfl⟩ := Prod.mk.inj (Option.some.inj h)
    exact .none

theorem of_number? {negative : Bool} (h : number? negative s = some (t, r)) :
    (∃ n, t = .number n) ∧ ∃ a b, Whole s a ∧ Fraction a b ∧ Exponent b r := by
  simp only [number?, literal?, Option.bind_eq_bind, Option.bind_eq_some_iff] at h
  obtain ⟨⟨l, _⟩, ⟨⟨ds, a⟩, hwhole, ⟨fs, b⟩, hfraction, ⟨e, q⟩, hexponent, hl⟩, n, _, ht⟩ := h
  obtain ⟨_, rfl⟩ := Prod.mk.inj (Option.some.inj hl)
  obtain ⟨rfl, rfl⟩ := Prod.mk.inj (Option.some.inj ht)
  exact ⟨⟨n, rfl⟩, a, b, whole_of_wholePart? hwhole, fraction_of_fraction? hfraction,
    exponent_of_exponent? hexponent⟩

theorem isHexDigit_of_hexUnit? {a b c d : Char} {u : ℕ} (h : hexUnit? a b c d = some u) :
    isHexDigit a ∧ isHexDigit b ∧ isHexDigit c ∧ isHexDigit d := by
  simp only [hexUnit?, Option.bind_eq_bind, Option.bind_eq_some_iff] at h
  obtain ⟨_, ha, _, hb, _, hc, _, hd, _⟩ := h
  simp only [isHexDigit, ha, hb, hc, hd, Option.isSome_some, and_self]

theorem mem_of_simpleEscape? {e : Char} (h : simpleEscape? e = some c) :
    e ∈ ['"', '\\', '/', 'b', 'f', 'n', 'r', 't'] := by
  unfold simpleEscape? at h
  split at h
  all_goals first | decide | simp at h

theorem characters_of_pieces? {ps : List Piece} (h : pieces? s = some (ps, r)) :
    Characters s r := by
  fun_induction pieces? s generalizing ps r with
  | case1 => simp at h
  | case2 q =>
    obtain ⟨_, rfl⟩ := Prod.mk.inj (Option.some.inj h)
    exact .close
  | case3 a b c d q ih =>
    simp only [Option.bind_eq_bind, Option.bind_eq_some_iff] at h
    obtain ⟨u, hu, ⟨ps', q'⟩, hq, he⟩ := h
    obtain ⟨_, rfl⟩ := Prod.mk.inj (Option.some.inj he)
    obtain ⟨ha, hb, hc, hd⟩ := isHexDigit_of_hexUnit? hu
    exact .unit ha hb hc hd (ih hq)
  | case4 e q _ ih =>
    simp only [Option.bind_eq_bind, Option.bind_eq_some_iff] at h
    obtain ⟨c, hc, ⟨ps', q'⟩, hq, he⟩ := h
    obtain ⟨_, rfl⟩ := Prod.mk.inj (Option.some.inj he)
    exact .escape (mem_of_simpleEscape? hc) (ih hq)
  | case5 => simp at h
  | case6 c q hquote _ _ hc ih =>
    simp only [Option.bind_eq_bind, Option.bind_eq_some_iff] at h
    obtain ⟨⟨ps', q'⟩, hq, he⟩ := h
    obtain ⟨_, rfl⟩ := Prod.mk.inj (Option.some.inj he)
    simp only [Bool.or_eq_true, decide_eq_true_eq, not_or] at hc
    exact .plain (Char.not_lt.mp hc.1) hquote hc.2 (ih hq)

theorem lexeme_of_string? (h : string? s = some (t, r)) : Lexeme t ('"' :: s) r := by
  simp only [string?, Option.bind_eq_bind, Option.bind_eq_some_iff] at h
  obtain ⟨⟨ps, q⟩, hps, cs, _, ht⟩ := h
  obtain ⟨rfl, rfl⟩ := Prod.mk.inj (Option.some.inj ht)
  exact .string (characters_of_pieces? hps)

/-- A token is taken off the front of a text as it is written. -/
theorem lexeme_of_next? (h : next? s = some (t, r)) : Lexeme t s r := by
  unfold next? at h
  split at h
  case h_1 => simp at h
  case h_11 => exact lexeme_of_string? h
  case h_12 =>
    obtain ⟨⟨n, rfl⟩, a, b, hwhole, hfraction, hexponent⟩ := of_number? h
    exact .number (.negative hwhole hfraction hexponent)
  case h_13 =>
    obtain ⟨⟨n, rfl⟩, a, b, hwhole, hfraction, hexponent⟩ := of_number? h
    exact .number (.positive hwhole hfraction hexponent)
  all_goals
    obtain ⟨rfl, rfl⟩ := Prod.mk.inj (Option.some.inj h)
    constructor

end LoadReport.Json.Token
