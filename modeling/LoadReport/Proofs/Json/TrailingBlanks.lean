import LoadReport.Json.Parser
import LoadReport.Proofs.Json.Lexeme
import Mathlib.Data.List.TakeWhile

/-! # Blanks after a text

A token ends before a blank, and no blank completes one. So blanks after a text change none of its
tokens: the text is read to the same value as before, or refused as before.
-/

namespace LoadReport.Json

namespace Token

open Grammar

variable {c : Char} {s r x : List Char} {ds : List ℕ} {t : Token}

/-- A reading that goes on before the given characters. -/
def before {α : Type} (x : List Char) (p : α × List Char) : α × List Char := (p.1, p.2 ++ x)

theorem isBlank_cases (h : isBlank c) : c = ' ' ∨ c = '\t' ∨ c = '\n' ∨ c = '\r' := by
  simpa [isBlank, or_assoc] using h

theorem value?_of_isBlank (h : isBlank c) : Digit.value? c = none := by
  rcases isBlank_cases h with rfl | rfl | rfl | rfl <;> rfl

theorem hexValue?_of_isBlank (h : isBlank c) : Digit.hexValue? c = none := by
  rcases isBlank_cases h with rfl | rfl | rfl | rfl <;> rfl

theorem simpleEscape?_of_isBlank (h : isBlank c) : simpleEscape? c = none := by
  rcases isBlank_cases h with rfl | rfl | rfl | rfl <;> rfl

/-- A word without blanks at the front of a text is not made by blanks after it. -/
theorem exists_of_append_eq {w q : List Char} (hx : ∀ c ∈ x, isBlank c)
    (hw : ∀ c ∈ w, ¬ isBlank c) (h : s ++ x = w ++ q) : ∃ r, s = w ++ r := by
  rcases List.append_eq_append_iff.mp h with ⟨as, rfl, rfl⟩ | ⟨r, rfl, _⟩
  · cases as with
    | nil => exact ⟨[], by simp⟩
    | cons a as => exact absurd (hx a (by simp)) (hw a (by simp))
  · exact ⟨r, rfl⟩

theorem append_ne_cons (hx : ∀ c ∈ x, isBlank c) (hc : ¬ isBlank c) (h : ∀ q, s ≠ c :: q) :
    ∀ q, s ++ x ≠ c :: q := by
  intro q hq
  obtain ⟨r, hr⟩ := exists_of_append_eq (w := [c]) hx (by simpa using hc) hq
  exact h r hr

theorem digits_append (hx : ∀ c ∈ x, isBlank c) (s : List Char) :
    digits (s ++ x) = before x (digits s) := by
  induction s with
  | nil =>
    cases x with
    | nil => rfl
    | cons c x => exact digits_cons_of_none (value?_of_isBlank (hx c List.mem_cons_self))
  | cons c s ih =>
    cases hc : Digit.value? c with
    | none => rw [List.cons_append, digits_cons_of_none hc, digits_cons_of_none hc]; rfl
    | some d => rw [List.cons_append, digits_cons_of_some hc, digits_cons_of_some hc, ih]; rfl

theorem wholePart?_append (hx : ∀ c ∈ x, isBlank c) (s : List Char) :
    wholePart? (s ++ x) = (wholePart? s).map (before x) := by
  rw [wholePart?, wholePart?, digits_append hx]
  rcases digits s with ⟨_ | ⟨_ | d, _ | ⟨e, ds⟩⟩, r⟩ <;> rfl

theorem fraction?_of_ne (h : ∀ q, s ≠ '.' :: q) : fraction? s = some ([], s) := by
  unfold fraction?
  split
  · exact absurd rfl (h _)
  · rfl

theorem fraction?_append (hx : ∀ c ∈ x, isBlank c) (s : List Char) :
    fraction? (s ++ x) = (fraction? s).map (before x) := by
  by_cases hs : ∃ q, s = '.' :: q
  · obtain ⟨q, rfl⟩ := hs
    rw [List.cons_append, fraction?, fraction?, digits_append hx]
    rcases digits q with ⟨_ | ⟨d, ds⟩, r⟩ <;> rfl
  · have hne : ∀ q, s ≠ '.' :: q := fun q hq => hs ⟨q, hq⟩
    rw [fraction?_of_ne hne, fraction?_of_ne (append_ne_cons hx (by decide) hne)]
    rfl

theorem exponentDigits?_append (hx : ∀ c ∈ x, isBlank c) (negative : Bool) (s : List Char) :
    exponentDigits? negative (s ++ x) = (exponentDigits? negative s).map (before x) := by
  rw [exponentDigits?, exponentDigits?, digits_append hx]
  rcases digits s with ⟨_ | ⟨d, ds⟩, r⟩ <;> rfl

theorem exponent?_unsigned (hc : c = 'e' ∨ c = 'E') (hplus : ∀ q, s ≠ '+' :: q)
    (hminus : ∀ q, s ≠ '-' :: q) : exponent? (c :: s) = exponentDigits? false s := by
  unfold exponent?
  split <;> simp_all

theorem exponent?_of_ne (h : ∀ q, s ≠ 'e' :: q) (h' : ∀ q, s ≠ 'E' :: q) :
    exponent? s = some (none, s) := by
  unfold exponent?
  split <;> simp_all

theorem exponent?_append (hx : ∀ c ∈ x, isBlank c) (s : List Char) :
    exponent? (s ++ x) = (exponent? s).map (before x) := by
  rw [exponent?.eq_def s]
  split
  case h_1 | h_2 | h_3 | h_4 => exact exponentDigits?_append hx _ _
  case h_5 hplus hminus =>
    exact (exponent?_unsigned (.inl rfl) (append_ne_cons hx (by decide) hplus)
      (append_ne_cons hx (by decide) hminus)).trans (exponentDigits?_append hx _ _)
  case h_6 hplus hminus =>
    exact (exponent?_unsigned (.inr rfl) (append_ne_cons hx (by decide) hplus)
      (append_ne_cons hx (by decide) hminus)).trans (exponentDigits?_append hx _ _)
  case h_7 he hE =>
    exact exponent?_of_ne (append_ne_cons hx (by decide) he) (append_ne_cons hx (by decide) hE)

theorem literal?_append (hx : ∀ c ∈ x, isBlank c) (negative : Bool) (s : List Char) :
    literal? negative (s ++ x) = (literal? negative s).map (before x) := by
  simp only [literal?, Option.bind_eq_bind, wholePart?_append hx]
  cases wholePart? s with
  | none => rfl
  | some whole =>
    obtain ⟨ds, a⟩ := whole
    simp only [Option.map_some, Option.bind_some, before, fraction?_append hx]
    cases fraction? a with
    | none => rfl
    | some fraction =>
      obtain ⟨fs, b⟩ := fraction
      simp only [Option.map_some, Option.bind_some, before, exponent?_append hx]
      cases exponent? b <;> rfl

theorem number?_append (hx : ∀ c ∈ x, isBlank c) (negative : Bool) (s : List Char) :
    number? negative (s ++ x) = (number? negative s).map (before x) := by
  simp only [number?, Option.bind_eq_bind, literal?_append hx]
  cases literal? negative s with
  | none => rfl
  | some read =>
    obtain ⟨l, r⟩ := read
    simp only [Option.map_some, Option.bind_some, before]
    cases l.number? <;> rfl

/-- Blanks alone do not close a string. -/
theorem pieces?_of_isBlank (hx : ∀ c ∈ x, isBlank c) : pieces? x = none := by
  induction x with
  | nil => rfl
  | cons c x ih =>
    obtain ⟨hc, hrest⟩ := List.forall_mem_cons.mp hx
    have hnone := ih hrest
    rcases isBlank_cases hc with rfl | rfl | rfl | rfl <;> simp [pieces?, hnone]

theorem hexUnit?_eq_none {a b c d : Char} (h : isBlank d) : hexUnit? a b c d = none := by
  simp [hexUnit?, hexValue?_of_isBlank h]

/-- The fourth character comes from the blanks if there are not four before them. -/
theorem isBlank_of_short {a b c d : Char} {q r : List Char} (hx : ∀ c ∈ x, isBlank c)
    (hq : ∀ a b c d r, q ≠ a :: b :: c :: d :: r) (h : q ++ x = a :: b :: c :: d :: r) :
    isBlank d := by
  have hd : d ∈ x := by
    rcases q with _ | ⟨_, _ | ⟨_, _ | ⟨_, _ | ⟨_, q⟩⟩⟩⟩
    case cons.cons.cons.cons => exact absurd rfl (hq _ _ _ _ _)
    all_goals
      simp only [List.cons_append, List.nil_append, List.cons.injEq] at h
      simp [h]
  exact hx d hd

/-- What goes on after a part of a string goes on before the blanks behind it. -/
theorem pieces?_append (hx : ∀ c ∈ x, isBlank c) (s : List Char) :
    pieces? (s ++ x) = (pieces? s).map (before x) := by
  fun_induction pieces? s with
  | case1 => exact pieces?_of_isBlank hx
  | case2 q => rfl
  | case3 a b c d q ih =>
    simp only [List.cons_append, pieces?, ih]
    cases hexUnit? a b c d <;> cases pieces? q <;> rfl
  | case4 e q hunit ih =>
    by_cases hfour : ∃ a b c d r, e = 'u' ∧ q ++ x = a :: b :: c :: d :: r
    · obtain ⟨a, b, c, d, r, rfl, h⟩ := hfour
      have hd : isBlank d := isBlank_of_short hx (fun a b c d r => hunit a b c d r rfl) h
      simp only [List.cons_append, h, pieces?, hexUnit?_eq_none hd]
      rfl
    · rw [List.cons_append, List.cons_append, pieces?, ih]
      · cases simpleEscape? e <;> cases pieces? q <;> rfl
      · exact fun a b c d r he hq => hfour ⟨a, b, c, d, r, he, hq⟩
  | case5 c q hquote hunit hescape hc =>
    by_cases hslash : c = '\\'
    · subst hslash
      have hq : q = [] := by
        cases q with
        | nil => rfl
        | cons e r => exact (hescape e r rfl rfl).elim
      subst hq
      cases x with
      | nil => rfl
      | cons e x =>
        have he : isBlank e := hx e List.mem_cons_self
        rw [List.cons_append, List.nil_append, pieces?, simpleEscape?_of_isBlank he]
        · rfl
        · rintro _ _ _ _ _ rfl
          exact absurd he (by decide)
    · rw [List.cons_append, pieces?, if_pos hc]
      · rfl
      · exact hquote
      · exact fun _ _ _ _ _ h => absurd h hslash
      · exact fun _ _ h => absurd h hslash
  | case6 c q hquote hunit hescape hc ih =>
    have hslash : c ≠ '\\' := by
      rintro rfl
      exact hc (by simp)
    rw [List.cons_append, pieces?, if_neg hc, ih]
    · cases pieces? q <;> rfl
    · exact hquote
    · exact fun _ _ _ _ _ h => absurd h hslash
    · exact fun _ _ h => absurd h hslash

theorem string?_append (hx : ∀ c ∈ x, isBlank c) (s : List Char) :
    string? (s ++ x) = (string? s).map (before x) := by
  simp only [string?, Option.bind_eq_bind, pieces?_append hx]
  cases pieces? s with
  | none => rfl
  | some read =>
    obtain ⟨ps, r⟩ := read
    simp only [Option.map_some, Option.bind_some, before]
    cases join? ps <;> rfl

theorem next?_of_isBlank (hx : ∀ c ∈ x, isBlank c) : next? x = none := by
  cases x with
  | nil => rfl
  | cons c x =>
    rcases isBlank_cases (hx c List.mem_cons_self) with rfl | rfl | rfl | rfl <;> rfl

theorem next?_append (hx : ∀ c ∈ x, isBlank c) (s : List Char) :
    next? (s ++ x) = (next? s).map (before x) := by
  rw [next?.eq_def s]
  split
  case h_11 => exact string?_append hx _
  case h_12 => exact number?_append hx _ _
  case h_1 => exact next?_of_isBlank hx
  case h_13 c r hopenBracket hcloseBracket hopenBrace hcloseBrace hcomma hcolon hnull htrue hfalse
      hquote hminus =>
    rw [List.cons_append, next?, ← List.cons_append, number?_append hx]
    · exact hopenBracket
    · exact hcloseBracket
    · exact hopenBrace
    · exact hcloseBrace
    · exact hcomma
    · exact hcolon
    · intro q hc hq
      obtain ⟨q', hq'⟩ := exists_of_append_eq (w := ['u', 'l', 'l']) hx (by simp [isBlank]) hq
      exact hnull q' hc hq'
    · intro q hc hq
      obtain ⟨q', hq'⟩ := exists_of_append_eq (w := ['r', 'u', 'e']) hx (by simp [isBlank]) hq
      exact htrue q' hc hq'
    · intro q hc hq
      obtain ⟨q', hq'⟩ := exists_of_append_eq (w := ['a', 'l', 's', 'e']) hx (by simp [isBlank]) hq
      exact hfalse q' hc hq'
    · exact hquote
    · exact hminus
  all_goals rfl

theorem all?_of_nil (h : s.dropWhile isBlank = []) : all? s = some [] := by
  rw [all?]
  split
  · rfl
  · simp_all

theorem all?_of_cons {cs : List Char} (h : s.dropWhile isBlank = c :: cs) :
    all? s = (next? (c :: cs)).bind fun p => (all? p.2).map (p.1 :: ·) := by
  rw [all?]
  split
  · simp_all
  · rename_i d ds hs
    obtain ⟨rfl, rfl⟩ := List.cons.inj (hs.symm.trans h)
    split
    · simp_all
    · simp_all

theorem dropWhile_append_of_cons {cs : List Char} (h : s.dropWhile isBlank = c :: cs)
    (x : List Char) : (s ++ x).dropWhile isBlank = c :: (cs ++ x) := by
  rw [List.dropWhile_append, h]
  rfl

theorem all?_append (hx : ∀ c ∈ x, isBlank c) (s : List Char) : all? (s ++ x) = all? s := by
  fun_induction all? s with
  | case1 s hs =>
    have hdrop : (s ++ x).dropWhile isBlank = [] := by
      rw [List.dropWhile_append, hs]
      exact List.dropWhile_eq_nil_iff.mpr hx
    exact all?_of_nil hdrop
  | case2 s c cs hs ht =>
    rw [all?_of_cons (dropWhile_append_of_cons hs x), ← List.cons_append, next?_append hx, ht]
    rfl
  | case3 s c cs hs t r ht _ ih =>
    rw [all?_of_cons (dropWhile_append_of_cons hs x), ← List.cons_append, next?_append hx, ht]
    simp only [Option.map_some, Option.bind_some, before, ih]

end Token

/-- Blanks after a text do not change the value that is read from it. -/
theorem parse?_append {x : List Char} (hx : ∀ c ∈ x, Token.isBlank c) (s : List Char) :
    parse? (s ++ x) = parse? s := by
  rw [parse?, parse?, Token.all?_append hx]

end LoadReport.Json
