import LoadReport.Report.Markup
import LoadReport.Proofs.Report.Characters
import Mathlib.Data.List.Basic

/-! # Readings of markup

The reader of tags is a machine: the reading of a text followed by another one is the reading of
the first, followed by that of the second from the state that the first one leaves.
-/

namespace LoadReport.Report.Markup

variable {q : State} {a b : String} {s t x : String} {cs : List Char} {ts us : List Token}

@[simp] theorem stateFrom_append (q : State) (cs ds : List Char) :
    stateFrom q (cs ++ ds) = stateFrom (stateFrom q cs) ds := List.foldl_append

theorem tokensFrom_append (q : State) (cs ds : List Char) :
    tokensFrom q (cs ++ ds) = tokensFrom q cs ++ tokensFrom (stateFrom q cs) ds := by
  induction cs generalizing q with
  | nil => rfl
  | cons c cs ih =>
    rw [List.cons_append, tokensFrom, ih, tokensFrom, List.append_assoc]
    rfl

def Closed (s : String) : Prop := stateFrom none s.toList = none

instance (s : String) : Decidable (Closed s) := inferInstanceAs (Decidable (_ = _))

theorem closed_ofList (h : stateFrom none cs = none) : Closed (String.ofList cs) := by
  rw [Closed, String.toList_ofList, h]

theorem tokens_ofList (cs : List Char) : tokens (String.ofList cs) = tokensFrom none cs := by
  rw [tokens, String.toList_ofList]

theorem Closed.append (hs : Closed s) (ht : Closed t) : Closed (s ++ t) := by
  rw [Closed, String.toList_append, stateFrom_append, hs, ht]

theorem tokens_append (hs : Closed s) (t : String) : tokens (s ++ t) = tokens s ++ tokens t := by
  rw [tokens, String.toList_append, tokensFrom_append, hs]
  rfl

theorem tokens_join {l : List String} (h : ∀ s ∈ l, Closed s) :
    tokens (String.join l) = l.flatMap tokens := by
  induction l with
  | nil => rfl
  | cons s l ih =>
    obtain ⟨hs, hl⟩ := List.forall_mem_cons.mp h
    rw [String.join_cons, tokens_append hs, ih hl, List.flatMap_cons]

/-- Whether a text cannot open a tag. -/
abbrev Plain (s : String) : Prop := occurrences '<' s = 0

theorem run_of_notMem (h : '<' ∉ cs) :
    stateFrom none cs = none ∧ tokensFrom none cs = cs.map .char := by
  induction cs with
  | nil => exact ⟨rfl, rfl⟩
  | cons c cs ih =>
    obtain ⟨hc, hcs⟩ := not_or.mp (List.mem_cons.not.mp h)
    obtain ⟨hstate, htokens⟩ := ih hcs
    have hstep : step none c = (none, [.char c]) := if_neg (Ne.symm hc)
    constructor
    · rw [stateFrom, List.foldl_cons, hstep]
      exact hstate
    · rw [tokensFrom, hstep, htokens]
      rfl

theorem closed_of_plain (hs : Plain s) : Closed s := (run_of_notMem (occurrences_eq_zero.mp hs)).1

theorem tokens_of_plain (hs : Plain s) : tokens s = s.toList.map .char :=
  (run_of_notMem (occurrences_eq_zero.mp hs)).2

@[simp] theorem tagsOf_append (ts us : List Token) : tagsOf (ts ++ us) = tagsOf ts ++ tagsOf us :=
  List.filterMap_append

@[simp] theorem tagsOf_flatMap {α : Type*} (l : List α) (f : α → List Token) :
    tagsOf (l.flatMap f) = l.flatMap fun x => tagsOf (f x) := List.filterMap_flatMap

@[simp] theorem tagsOf_cons_tag (a : String) (ts : List Token) :
    tagsOf (.tag a :: ts) = a :: tagsOf ts := rfl

@[simp] theorem tagsOf_chars (cs : List Char) : tagsOf (cs.map .char) = [] := by
  rw [tagsOf, List.filterMap_map]
  exact List.filterMap_eq_nil_iff.mpr fun _ _ => rfl

theorem mem_tagsOf : a ∈ tagsOf ts ↔ .tag a ∈ ts := by
  rw [tagsOf, List.mem_filterMap]
  constructor
  · rintro ⟨t | c, ht, h⟩
    · obtain rfl := Option.some.inj h
      exact ht
    · cases h
  · exact fun h => ⟨_, h, rfl⟩

theorem contents_append (h : a ∉ tagsOf ts) : contents a b (ts ++ us) = contents a b us := by
  induction ts with
  | nil => rfl
  | cons t ts ih =>
    rw [mem_tagsOf, List.mem_cons, not_or] at h
    rw [List.cons_append, contents, if_neg (Ne.symm h.1), ih (mem_tagsOf.not.mpr h.2)]

@[simp] theorem contents_cons_char (c : Char) (ts : List Token) :
    contents a b (.char c :: ts) = contents a b ts := if_neg Token.noConfusion

theorem contents_chars_append (cs : List Char) (ts : List Token) :
    contents a b (cs.map .char ++ ts) = contents a b ts := by
  refine contents_append ?_
  rw [tagsOf_chars]
  exact List.not_mem_nil

theorem contents_eq_nil (h : a ∉ tagsOf ts) : contents a b ts = [] := by
  rw [← List.append_nil ts, contents_append h]
  rfl

/-- An element whose content has neither of its tags is read before what follows it. -/
theorem contents_element (hab : a ≠ b) (ha : a ∉ tagsOf ts) (hb : b ∉ tagsOf ts) :
    contents a b (.tag a :: (ts ++ .tag b :: us)) = ts :: contents a b us := by
  have htake : (ts ++ .tag b :: us).takeWhile (· ≠ .tag b) = ts := by
    rw [List.takeWhile_append_of_pos, List.takeWhile_cons_of_neg (by simp), List.append_nil]
    intro t ht
    rw [decide_eq_true_eq]
    rintro rfl
    exact hb (mem_tagsOf.mpr ht)
  have hskip : Token.tag b ≠ .tag a := fun h => hab (Token.tag.inj h).symm
  rw [contents, if_pos rfl, htake, contents_append ha, contents, if_neg hskip]

/-- The one element of its kind is found wherever it stands. -/
theorem contents_eq_singleton (hab : a ≠ b) (hc : (tagsOf ts).count a = 1)
    (h : .tag a :: (cs.map .char ++ [.tag b]) <:+: ts) : contents a b ts = [cs.map .char] := by
  obtain ⟨before, after, rfl⟩ := h
  have hcount : (tagsOf before).count a + (tagsOf after).count a = 0 := by
    simp [Ne.symm hab] at hc
    omega
  have hbefore : a ∉ tagsOf before := List.count_eq_zero.mp (by omega)
  have hafter : a ∉ tagsOf after := List.count_eq_zero.mp (by omega)
  rw [List.append_assoc, contents_append hbefore, List.cons_append, List.append_assoc,
    List.singleton_append, contents_element hab (by simp) (by simp), contents_eq_nil hafter]

theorem textOf?_chars (cs : List Char) :
    textOf? (cs.map .char) = some (String.ofList (decodeEntities cs)) := by
  have h : (cs.map Token.char).mapM Token.char? = some cs := by
    induction cs with
    | nil => rfl
    | cons c cs ih => simp [ih, Token.char?]
  rw [textOf?, h]
  rfl

end LoadReport.Report.Markup
