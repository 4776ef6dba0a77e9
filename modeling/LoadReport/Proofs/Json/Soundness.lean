import LoadReport.Json.Parser
import LoadReport.Proofs.Json.Lexeme

/-! # Only JSON texts are read

A state of the machine demands something of the rest of the text: that it complete what is open.
Every token takes a state to one whose demands are those that are left, so a text from which a value
is read derives from the grammar.
-/

namespace LoadReport.Json

open Grammar

variable {v u : Json} {t : Token} {st st' : State} {frames : List Frame}
variable {r a b c q : List Char}

/-- A value as it is written. Objects are the values that begin with a brace. -/
structure Writes (v : Json) (r q : List Char) : Prop where
  derives : Derives .value r q
  brace : ∀ ms, v = .object ms → ∃ a, r = '\x7b' :: a

/-- What is left of an array after an element. -/
def AfterElement (r q : List Char) : Prop :=
  Blanks r (']' :: q) ∨ ∃ a, Blanks r (',' :: a) ∧ Derives .elements a (']' :: q)

/-- What is left of an object after a member. -/
def AfterMember (r q : List Char) : Prop :=
  Blanks r ('\x7d' :: q) ∨ ∃ a, Blanks r (',' :: a) ∧ Derives .members a ('\x7d' :: q)

/-- What is left of an object after the name of a member. -/
def AfterName (r q : List Char) : Prop :=
  ∃ a b c, Blanks r (':' :: a) ∧ Blanks a b ∧ Derives .value b c ∧ AfterMember c q

/-- The rest of a text after the value `u` inside open containers completes the value `v`. -/
def Completes (v : Json) : Json → List Frame → List Char → Prop
  | u, [], r => u = v ∧ Blanks r []
  | _, .array _ :: frames, r => ∃ items q, AfterElement r q ∧ Completes v (.array items) frames q
  | _, .object _ _ :: frames, r => ∃ ms q, AfterMember r q ∧ Completes v (.object ms) frames q

/-- The rest of a text completes the value `v` from a state. -/
def Demands (v : Json) : State → List Char → Prop
  | .value frames, r => ∃ u a b, Blanks r a ∧ Writes u a b ∧ Completes v u frames b
  | .itemOrClose frames, r =>
    ∃ items q, (Blanks r (']' :: q) ∨ Derives .elements r (']' :: q)) ∧
      Completes v (.array items) frames q
  | .nameOrClose frames, r =>
    ∃ ms q, (Blanks r ('\x7d' :: q) ∨ Derives .members r ('\x7d' :: q)) ∧
      Completes v (.object ms) frames q
  | .name _ frames, r =>
    ∃ ms q, Derives .members r ('\x7d' :: q) ∧ Completes v (.object ms) frames q
  | .colon _ _ frames, r => ∃ ms q, AfterName r q ∧ Completes v (.object ms) frames q
  | .complete u frames, r => Completes v u frames r

theorem elements_of_demands {items : List Json}
    (h : Demands v (.value (.array items :: frames)) r) :
    ∃ items q, Derives .elements r (']' :: q) ∧ Completes v (.array items) frames q := by
  obtain ⟨u, a, b, hr, hu, items, q, hb | ⟨c, hb, hc⟩, hq⟩ := h
  · exact ⟨items, q, .lastElement (.element hr hu.derives hb), hq⟩
  · exact ⟨items, q, .elements (.element hr hu.derives hb) hc, hq⟩

theorem members_of_afterName (hr : Blanks r ('"' :: a)) (ha : Characters a b)
    (h : AfterName b q) : Derives .members r ('\x7d' :: q) := by
  obtain ⟨c, d, e, hcolon, hc, hd, he | ⟨f, he, hf⟩⟩ := h
  · exact .lastMember (.member hr ha hcolon (.element hc hd he))
  · exact .members (.member hr ha hcolon (.element hc hd he)) hf

theorem demands_of_begin? (hr : Blanks r a) (ht : Token.Lexeme t a q)
    (hs : State.begin? frames t = some st) (h : Demands v st q) : Demands v (.value frames) r := by
  cases ht with
  | null =>
    obtain rfl := Option.some.inj hs
    exact ⟨.null, _, _, hr, ⟨.null, nofun⟩, h⟩
  | true =>
    obtain rfl := Option.some.inj hs
    exact ⟨.bool true, _, _, hr, ⟨.true, nofun⟩, h⟩
  | false =>
    obtain rfl := Option.some.inj hs
    exact ⟨.bool false, _, _, hr, ⟨.false, nofun⟩, h⟩
  | @number n _ _ hn =>
    obtain rfl := Option.some.inj hs
    exact ⟨.number n, _, _, hr, ⟨.number hn, nofun⟩, h⟩
  | @string text _ _ hc =>
    obtain rfl := Option.some.inj hs
    exact ⟨.string text, _, _, hr, ⟨.string hc, nofun⟩, h⟩
  | openBracket =>
    obtain ⟨_, he⟩ := Option.ite_none_right_eq_some.mp hs
    obtain rfl := Option.some.inj he
    obtain ⟨items, q, hq | hq, hclose⟩ := h
    · exact ⟨.array items, _, _, hr, ⟨.emptyArray hq, nofun⟩, hclose⟩
    · exact ⟨.array items, _, _, hr, ⟨.array hq, nofun⟩, hclose⟩
  | openBrace =>
    obtain ⟨_, he⟩ := Option.ite_none_right_eq_some.mp hs
    obtain rfl := Option.some.inj he
    obtain ⟨ms, q, hq | hq, hclose⟩ := h
    · exact ⟨.object ms, _, _, hr, ⟨.emptyObject hq, fun _ _ => ⟨_, rfl⟩⟩, hclose⟩
    · exact ⟨.object ms, _, _, hr, ⟨.object hq, fun _ _ => ⟨_, rfl⟩⟩, hclose⟩
  | _ => simp [State.begin?] at hs

/-- If the rest after a token completes the state that the token leads to, the whole text completes
the state before it. -/
theorem demands_of_step? (hr : Blanks r a) (ht : Token.Lexeme t a q)
    (hs : st.step? t = some st') (h : Demands v st' q) : Demands v st r := by
  cases st with
  | value frames => exact demands_of_begin? hr ht hs h
  | itemOrClose frames =>
    cases t with
    | closeBracket =>
      cases hs
      cases ht
      exact ⟨_, _, .inl hr, h⟩
    | _ =>
      have hfirst : Demands v (.value (.array [] :: frames)) r := demands_of_begin? hr ht hs h
      obtain ⟨items, q, hq, hclose⟩ := elements_of_demands hfirst
      exact ⟨items, q, .inr hq, hclose⟩
  | nameOrClose frames =>
    cases t with
    | closeBrace =>
      cases hs
      cases ht
      exact ⟨_, _, .inl hr, h⟩
    | string n =>
      cases hs
      obtain ⟨ms, q, hq, hclose⟩ := h
      cases ht with
      | string hc => exact ⟨ms, q, .inr (members_of_afterName hr hc hq), hclose⟩
    | _ => cases hs
  | name ms frames =>
    cases t with
    | string n =>
      cases hs
      obtain ⟨ms, q, hq, hclose⟩ := h
      cases ht with
      | string hc => exact ⟨ms, q, members_of_afterName hr hc hq, hclose⟩
    | _ => cases hs
  | colon ms n frames =>
    cases t with
    | colon =>
      cases hs
      obtain ⟨u, b, c, hb, hu, ms, q, hq, hclose⟩ := h
      cases ht
      exact ⟨ms, q, ⟨_, _, _, hr, hb, hu.derives, hq⟩, hclose⟩
    | _ => cases hs
  | complete u frames =>
    rcases frames with _ | ⟨items | ⟨ms, n⟩, frames⟩
    · cases hs
    · cases t with
      | comma =>
        cases hs
        obtain ⟨items, q, hq, hclose⟩ := elements_of_demands h
        cases ht
        exact ⟨items, q, .inr ⟨_, hr, hq⟩, hclose⟩
      | closeBracket =>
        cases hs
        cases ht
        exact ⟨_, _, .inl hr, h⟩
      | _ => cases hs
    · cases t with
      | comma =>
        cases hs
        obtain ⟨ms, q, hq, hclose⟩ := h
        cases ht
        exact ⟨ms, q, .inr ⟨_, hr, hq⟩, hclose⟩
      | closeBrace =>
        cases hs
        cases ht
        exact ⟨_, _, .inl hr, h⟩
      | _ => cases hs

theorem demands_of_run {ts : List Token} (hts : Token.all? r = some ts)
    (hrun : ts.foldlM State.step? st = some st') (hv : st'.result? = some v) : Demands v st r := by
  fun_induction Token.all? r generalizing ts st with
  | case1 r hr =>
    obtain rfl := Option.some.inj hts
    obtain rfl := Option.some.inj hrun
    have hblanks := Blanks.dropWhile r
    rw [hr] at hblanks
    rcases st with _ | _ | _ | _ | _ | ⟨u, _ | _⟩
    case complete.nil => exact ⟨Option.some.inj hv, hblanks⟩
    all_goals cases hv
  | case2 => cases hts
  | case3 r c cs hr t q ht _ ih =>
    obtain ⟨rest, hrest, rfl⟩ := Option.map_eq_some_iff.mp hts
    rw [List.foldlM_cons] at hrun
    obtain ⟨next, hstep, hrun⟩ := Option.bind_eq_some_iff.mp hrun
    have hblanks := Blanks.dropWhile r
    rw [hr] at hblanks
    exact demands_of_step? hblanks (Token.lexeme_of_next? ht) hstep (ih hrest hrun)

/-- A text from which a value is read is that value with blanks around it. -/
theorem writes_of_parse? {s : List Char} (h : parse? s = some v) :
    ∃ a b, Blanks s a ∧ Writes v a b ∧ Blanks b [] := by
  simp only [parse?, Option.bind_eq_bind, Option.bind_eq_some_iff] at h
  obtain ⟨ts, hts, st, hrun, hv⟩ := h
  obtain ⟨u, a, b, ha, hu, rfl, hb⟩ := demands_of_run hts hrun hv
  exact ⟨a, b, ha, hu, hb⟩

theorem valid_of_parse? {s : List Char} (h : parse? s = some v) : Valid s := by
  obtain ⟨a, b, ha, hv, hb⟩ := writes_of_parse? h
  exact .element ha hv.derives hb

end LoadReport.Json
