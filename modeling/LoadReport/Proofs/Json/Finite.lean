import LoadReport.Json.Parser
import LoadReport.Proofs.Binary64.NaN

/-! # Numbers of JSON are finite

A significand has 64 bits and is divided by powers of ten or multiplied by one, where an infinite
product is refused. So every number that is read is a finite float, and the machine that reads makes
no other numbers.
-/

namespace LoadReport.Json

open Binary64

namespace Literal

variable {x : Float} {p : ℚ} {s n : ℕ} {ds : List ℕ} {e : ℤ} {l : Literal}

theorem absorb_lt (h : s < 2 ^ 64) : (absorb s ds).1 < 2 ^ 64 := by
  fun_induction absorb s ds with
  | case1 => exact h
  | case2 s d ds hd ih => exact ih hd
  | case3 => exact h

theorem is_powerOfTen (h : n ≤ 308) :
    ∃ q, 1 ≤ q ∧ Is (powerOfTen n) .positive q := by
  have hlarge : (10 : ℚ) ^ n ≤ 3 * 2 ^ (1022 : ℤ) := by
    calc
      (10 : ℚ) ^ n ≤ 10 ^ 308 := pow_le_pow_right₀ (by norm_num) h
      _ ≤ 3 * 2 ^ (1022 : ℤ) := by
        have hnat : 10 ^ 308 ≤ 3 * 2 ^ 1022 := by decide +kernel
        exact_mod_cast hnat
  have hone : (2 : ℚ) ^ (0 : ℤ) ≤ 10 ^ n := one_le_pow₀ (by norm_num)
  have hvalue : ((1 : ℕ) * 10 ^ n : ℚ) = 10 ^ n := by rw [Nat.cast_one, one_mul]
  refine ⟨nearest (10 ^ n), two_zpow_le_nearest (by decide) hone, ?_⟩
  have hrange := nearest_lt_two_zpow (pow_pos (by norm_num) n) hlarge
  exact hvalue ▸ is_ofScientific (hvalue.symm ▸ hrange)

theorem is_div_powerOfTen (hx : Is x .positive p) (hp : p ≤ 2 ^ (64 : ℤ)) (hn : n ≤ 308) :
    ∃ q ≤ 2 ^ (64 : ℤ), Is (x / powerOfTen n) .positive q := by
  obtain ⟨q, hq, hpower⟩ := is_powerOfTen hn
  have hle := nearest_div_le hx.denotes.nonneg (by decide) hp hq
  have hlt : nearest (p / q) < 2 ^ (1024 : ℤ) := hle.trans_lt (two_zpow_lt_range (by decide))
  exact ⟨nearest (p / q), hle, hx.div hpower (by linarith) hlt⟩

/-- Division by powers of ten does not lead above the range of the significand. -/
theorem is_divide (hx : Is x .positive p) (hp : p ≤ 2 ^ (64 : ℤ)) (n : ℕ) :
    ∃ q ≤ 2 ^ (64 : ℤ), Is (divide x n) .positive q := by
  fun_induction divide x n generalizing p with
  | case1 x n hn => exact is_div_powerOfTen hx hp hn
  | case2 => exact ⟨p, hp, hx⟩
  | case3 x n hn hzero ih =>
    obtain ⟨q, hq, hdiv⟩ := is_div_powerOfTen hx hp le_rfl
    exact ih hdiv hq

theorem isFinite_scale? {y : Float} (hs : s < 2 ^ 64) (h : scale? s e = some y) :
    y.isFinite = true := by
  have hnat := is_ofNat_of_lt hs
  unfold scale? at h
  dsimp only at h
  split_ifs at h with hneg hle hinf hzero
  · obtain ⟨q, -, hq⟩ := is_divide hnat (nearest_natCast_le hs) e.natAbs
    exact Option.some.inj h ▸ hq.isFinite
  · obtain ⟨q, hq, hpower⟩ := is_powerOfTen (n := e.natAbs) (by omega)
    have hnan := isNaN_mul (isNaN_of_isFinite hnat.isFinite) hpower (by linarith)
    exact Option.some.inj h ▸ isFinite_of_isInf hnan (Bool.eq_false_iff.mpr hinf)
  · exact Option.some.inj h ▸ hnat.isFinite

theorem isFinite_neg (h : x.isFinite = true) : (-x).isFinite = true :=
  let ⟨_, _, hx⟩ := exists_is h
  hx.neg.isFinite

theorem isFinite_signed {negative : Bool} {o : Option Float} (ho : ∀ z ∈ o, z.isFinite = true)
    (h : (o.bind fun z => some (if negative then -z else z)) = some x) : x.isFinite = true := by
  obtain ⟨z, rfl, hz⟩ := Option.bind_eq_some_iff.mp h
  have hfinite := ho z rfl
  rw [← Option.some.inj hz]
  split_ifs
  · exact isFinite_neg hfinite
  · exact hfinite

theorem isFinite_float? (h : l.float? = some x) : x.isFinite = true := by
  have hs : (absorb (absorb 0 l.whole).1 l.fraction).1 < 2 ^ 64 := absorb_lt (absorb_lt (by decide))
  simp only [float?, Option.bind_eq_bind, Option.pure_def] at h
  split at h
  case h_1 => exact isFinite_signed (fun _ => isFinite_scale? hs) h
  case h_2 e _ =>
    by_cases hsmall : e.natAbs < 0x80000000
    · rw [if_pos hsmall] at h
      exact isFinite_signed (fun _ => isFinite_scale? hs) h
    · rw [if_neg hsmall] at h
      split at h
      · exact isFinite_signed (fun z hz => Option.some.inj hz ▸ by decide) h
      · cases h

theorem isFinite_integer? {n : Number} (h : l.integer? = some n) : n.toFloat.isFinite = true := by
  have hs : (absorb 0 l.whole).1 < 2 ^ 64 := absorb_lt (by decide)
  have hnat := (is_ofNat_of_lt hs).isFinite
  unfold integer? at h
  dsimp only at h
  split_ifs at h <;> obtain rfl := Option.some.inj h
  · exact hnat
  · exact isFinite_neg hnat

/-- A literal is read to a finite number, if to any. -/
theorem isFinite_number? {n : Number} (h : l.number? = some n) : n.toFloat.isFinite = true := by
  unfold number? at h
  split at h
  case h_1 m hm => exact Option.some.inj h ▸ isFinite_integer? hm
  case h_2 =>
    obtain ⟨x, hx, rfl⟩ := Option.map_eq_some_iff.mp h
    exact isFinite_float? hx

end Literal

/-! ### Values -/

inductive AllFinite : Json → Prop where
  | null : AllFinite .null
  | bool (b : Bool) : AllFinite (.bool b)
  | number {n : Number} (h : n.toFloat.isFinite = true) : AllFinite (.number n)
  | string (s : String) : AllFinite (.string s)
  | array {items : List Json} (h : ∀ v ∈ items, AllFinite v) : AllFinite (.array items)
  | object {ms : List (String × Json)} (h : ∀ m ∈ ms, AllFinite m.2) : AllFinite (.object ms)

def Token.AllFinite (t : Token) : Prop := ∀ n, t = .number n → n.toFloat.isFinite = true

def Frame.AllFinite : Frame → Prop
  | .array items => ∀ v ∈ items, v.AllFinite
  | .object ms _ => ∀ m ∈ ms, m.2.AllFinite

def State.AllFinite : State → Prop
  | .value frames | .itemOrClose frames | .nameOrClose frames => ∀ f ∈ frames, f.AllFinite
  | .name ms frames | .colon ms _ frames =>
    (∀ m ∈ ms, m.2.AllFinite) ∧ ∀ f ∈ frames, f.AllFinite
  | .complete v frames => v.AllFinite ∧ ∀ f ∈ frames, f.AllFinite

variable {u v : Json} {t : Token} {st st' : State} {frames : List Frame}
  {ms : List (String × Json)} {name : String} {r q : List Char}

theorem allFinite_insertMember (hv : v.AllFinite) (hms : ∀ m ∈ ms, m.2.AllFinite) :
    ∀ m ∈ insertMember name v ms, m.2.AllFinite := by
  induction ms with
  | nil => simpa [insertMember] using hv
  | cons m ms ih =>
    obtain ⟨hm, hrest⟩ := List.forall_mem_cons.mp hms
    unfold insertMember
    split_ifs
    · exact List.forall_mem_cons.mpr ⟨hv, hms⟩
    · exact List.forall_mem_cons.mpr ⟨hv, hrest⟩
    · exact List.forall_mem_cons.mpr ⟨hm, ih hrest⟩

theorem State.allFinite_begin? (ht : t.AllFinite) (hf : ∀ f ∈ frames, f.AllFinite)
    (hs : begin? frames t = some st) : st.AllFinite := by
  cases t with
  | null =>
    cases hs
    exact ⟨.null, hf⟩
  | bool b =>
    cases hs
    exact ⟨.bool b, hf⟩
  | number n =>
    cases hs
    exact ⟨.number (ht n rfl), hf⟩
  | string s =>
    cases hs
    exact ⟨.string s, hf⟩
  | openBracket =>
    obtain ⟨-, he⟩ := Option.ite_none_right_eq_some.mp hs
    exact Option.some.inj he ▸ hf
  | openBrace =>
    obtain ⟨-, he⟩ := Option.ite_none_right_eq_some.mp hs
    exact Option.some.inj he ▸ hf
  | _ => cases hs

/-- A step makes values of the numbers of its token and of values that there are. -/
theorem State.allFinite_step? (ht : t.AllFinite) (hst : st.AllFinite)
    (hs : st.step? t = some st') : st'.AllFinite := by
  cases st with
  | value frames => exact allFinite_begin? ht hst hs
  | itemOrClose frames =>
    cases t with
    | closeBracket =>
      cases hs
      exact ⟨.array (List.forall_mem_nil _), hst⟩
    | _ =>
      have hempty : (Frame.array []).AllFinite := List.forall_mem_nil _
      exact allFinite_begin? ht (List.forall_mem_cons.mpr ⟨hempty, hst⟩) hs
  | nameOrClose frames =>
    cases t with
    | closeBrace =>
      cases hs
      exact ⟨.object (List.forall_mem_nil _), hst⟩
    | string n =>
      cases hs
      exact ⟨List.forall_mem_nil _, hst⟩
    | _ => cases hs
  | name ms frames =>
    cases t with
    | string n =>
      cases hs
      exact hst
    | _ => cases hs
  | colon ms n frames =>
    cases t with
    | colon =>
      cases hs
      exact List.forall_mem_cons.mpr hst
    | _ => cases hs
  | complete u frames =>
    rcases frames with _ | ⟨items | ⟨ms, n⟩, frames⟩
    · cases hs
    · obtain ⟨hu, hframes⟩ := hst
      obtain ⟨hitems, hrest⟩ := List.forall_mem_cons.mp hframes
      have hall : ∀ v ∈ u :: items, v.AllFinite := List.forall_mem_cons.mpr ⟨hu, hitems⟩
      cases t with
      | comma =>
        cases hs
        exact List.forall_mem_cons.mpr ⟨hall, hrest⟩
      | closeBracket =>
        cases hs
        exact ⟨.array fun v hv => hall v (List.mem_reverse.mp hv), hrest⟩
      | _ => cases hs
    · obtain ⟨hu, hframes⟩ := hst
      obtain ⟨hms, hrest⟩ := List.forall_mem_cons.mp hframes
      have hall : ∀ m ∈ insertMember n u ms, m.2.AllFinite := allFinite_insertMember hu hms
      cases t with
      | comma =>
        cases hs
        exact ⟨hall, hrest⟩
      | closeBrace =>
        cases hs
        exact ⟨.object hall, hrest⟩
      | _ => cases hs

theorem State.allFinite_run {ts : List Token} (hts : ∀ t ∈ ts, t.AllFinite) (hst : st.AllFinite)
    (hrun : ts.foldlM step? st = some st') : st'.AllFinite := by
  induction ts generalizing st with
  | nil => exact Option.some.inj hrun ▸ hst
  | cons t ts ih =>
    obtain ⟨ht, hts⟩ := List.forall_mem_cons.mp hts
    rw [List.foldlM_cons] at hrun
    obtain ⟨next, hstep, hrun⟩ := Option.bind_eq_some_iff.mp hrun
    exact ih hts (allFinite_step? ht hst hstep) hrun

namespace Token

theorem allFinite_number? {negative : Bool} (h : number? negative r = some (t, q)) :
    t.AllFinite := by
  simp only [number?, Option.bind_eq_bind, Option.bind_eq_some_iff] at h
  obtain ⟨⟨l, q⟩, -, n, hn, he⟩ := h
  obtain ⟨rfl, -⟩ := Prod.mk.inj (Option.some.inj he)
  rintro _ ⟨⟩
  exact Literal.isFinite_number? hn

theorem allFinite_string? (h : string? r = some (t, q)) : t.AllFinite := by
  simp only [string?, Option.bind_eq_bind, Option.bind_eq_some_iff] at h
  obtain ⟨_, -, cs, -, he⟩ := h
  obtain ⟨rfl, -⟩ := Prod.mk.inj (Option.some.inj he)
  rintro _ ⟨⟩

theorem allFinite_next? (h : next? r = some (t, q)) : t.AllFinite := by
  unfold next? at h
  split at h
  case h_11 => exact allFinite_string? h
  case h_12 => exact allFinite_number? h
  case h_13 => exact allFinite_number? h
  all_goals
    cases h
    try rintro _ ⟨⟩

theorem allFinite_all? {ts : List Token} (h : all? r = some ts) : ∀ t ∈ ts, t.AllFinite := by
  fun_induction all? r generalizing ts with
  | case1 => exact Option.some.inj h ▸ List.forall_mem_nil _
  | case2 => cases h
  | case3 r c cs hr t q ht _ ih =>
    obtain ⟨rest, hrest, rfl⟩ := Option.map_eq_some_iff.mp h
    exact List.forall_mem_cons.mpr ⟨allFinite_next? ht, ih hrest⟩

end Token

theorem allFinite_parse? (h : parse? r = some v) : v.AllFinite := by
  simp only [parse?, Option.bind_eq_bind, Option.bind_eq_some_iff] at h
  obtain ⟨ts, hts, st, hrun, hv⟩ := h
  have hstart : (State.value []).AllFinite := List.forall_mem_nil _
  have hst := State.allFinite_run (Token.allFinite_all? hts) hstart hrun
  rcases st with _ | _ | _ | _ | _ | ⟨u, _ | _⟩
  case complete.nil => exact Option.some.inj hv ▸ hst.1
  all_goals cases hv

theorem AllFinite.member? (h : v.AllFinite) (hu : v.member? name = some u) : u.AllFinite := by
  cases h with
  | object hms =>
    obtain ⟨l₁, l₂, rfl, -⟩ := List.lookup_eq_some_iff.mp hu
    exact hms (name, u) (by simp)
  | _ => cases hu

theorem AllFinite.number? {n : Number} (h : v.AllFinite) (hn : v.number? = some n) :
    n.toFloat.isFinite = true := by
  cases h with
  | number hfinite => exact Option.some.inj hn ▸ hfinite
  | _ => cases hn

end LoadReport.Json
