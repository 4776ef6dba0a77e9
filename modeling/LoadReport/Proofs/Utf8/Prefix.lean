import LoadReport.Proofs.Utf8.Encoding
import Mathlib.Data.List.Basic

/-! # Cutting UTF-8

A part of a byte sequence that is well-formed by itself stands for the same characters whatever
bytes are behind it. Only a byte below 0x80 stands for a character below 0x80, and at the end of a
sequence it stands by itself whatever is before it.
-/

namespace LoadReport.Utf8

variable {c : Char} {cs ds : List Char} {as bs : List UInt8} {p : Partial} {b : UInt8} {n : ℕ}

theorem decode?_eq_some_iff : decode? bs = some cs ↔ scan none bs = cs.map some := by
  have hmap : ∀ {l : List (Option Char)} {cs : List Char},
      l.mapM id = some cs ↔ l = cs.map some := by
    intro l
    induction l with
    | nil =>
      intro cs
      cases cs <;> simp
    | cons x l ih =>
      intro cs
      cases x <;> cases cs <;> simp [Option.bind_eq_some_iff, ih, and_comm]
  exact hmap

theorem scan_append {p : Option Partial} (h : none ∉ scan p as) :
    scan p (as ++ bs) = scan p as ++ scan none bs := by
  induction as generalizing p with
  | nil =>
    cases p with
    | none => rfl
    | some p => exact absurd (List.mem_singleton_self none) h
  | cons a as ih =>
    rw [scan, List.mem_append, not_or] at h
    rw [List.cons_append, scan, scan, ih h.2, List.append_assoc]

theorem decode?_of_append (h : decode? as = some cs) (h' : decode? (as ++ bs) = some ds) :
    ∃ es, ds = cs ++ es ∧ decode? bs = some es := by
  rw [decode?_eq_some_iff] at h h'
  rw [scan_append (by simp [h]), h] at h'
  obtain ⟨cs', es, rfl, hcs, hes⟩ := List.map_eq_append_iff.mp h'.symm
  obtain rfl := (List.map_injective_iff.mpr fun _ _ => Option.some.inj) hcs
  exact ⟨es, rfl, decode?_eq_some_iff.mpr hes.symm⟩

/-- An unfinished character that can only end above 0x7F: it has bits enough, or will have. -/
def Wide (p : Partial) : Prop :=
  2 ≤ p.bits ∨ 2 ≤ p.missing ∧ (1 ≤ p.bits ∨ 0x90 ≤ p.low.toNat)

theorem wide_of_lead (h : Lead.ofByte b = .several p) : Wide p := by
  have hE0 : (0xA0 : UInt8).toNat = 0xA0 := rfl
  have hF0 : (0x90 : UInt8).toNat = 0x90 := rfl
  unfold Lead.ofByte at h
  dsimp only at h
  split_ifs at h
  all_goals
    rw [← Lead.several.inj h, Wide]
    dsimp only
    omega

theorem toNat_ofNat_ge (h : 0x80 ≤ n) : (Char.ofNat n).toNat = 0 ∨ 0x80 ≤ (Char.ofNat n).toNat := by
  by_cases hn : n.isValidChar
  · rw [Char.ofNat, dif_pos hn]
    exact .inr h
  · rw [Char.ofNat, dif_neg hn]
    exact .inl rfl

/-- From an unfinished character on, there is an ill-formed part or a character above 0x7F. -/
theorem exists_of_wide (h : Wide p) (bs : List UInt8) :
    ∃ x ∈ scan (some p) bs, ∀ c, x = some c → c.toNat = 0 ∨ 0x80 ≤ c.toNat := by
  induction bs generalizing p with
  | nil => exact ⟨none, List.mem_singleton_self none, nofun⟩
  | cons b bs ih =>
    by_cases hin : (p.low ≤ b && b ≤ p.high) = true
    · have hlow : p.low.toNat ≤ b.toNat :=
        UInt8.le_iff_toNat_le.mp (of_decide_eq_true (Bool.and_eq_true_iff.mp hin).1)
      rw [Wide] at h
      by_cases hmissing : p.missing ≤ 1
      · have hscan : scan (some p) (b :: bs) =
            some (Char.ofNat (p.bits * 64 + (b.toNat - 0x80))) :: scan none bs := by
          simp [scan, step, hin, hmissing]
        refine ⟨_, hscan ▸ List.mem_cons_self, fun c hc => ?_⟩
        rw [← Option.some.inj hc]
        exact toNat_ofNat_ge (by omega)
      · have hscan : scan (some p) (b :: bs) =
            scan (some ⟨p.bits * 64 + (b.toNat - 0x80), p.missing - 1, 0x80, 0xBF⟩) bs := by
          simp [scan, step, hin, hmissing]
        rw [hscan]
        exact ih (.inl (by dsimp only; omega))
    · have hscan : scan (some p) (b :: bs) = none :: scan none (b :: bs) := by
        simp [scan, step, hin]
      exact ⟨none, hscan ▸ List.mem_cons_self, nofun⟩

theorem toNat_of_lead (h : Lead.ofByte b = .single c) : c.toNat = b.toNat := by
  have hvalid : ∀ n < 0x80, (Char.ofNat n).toNat = n := by decide
  unfold Lead.ofByte at h
  dsimp only at h
  split_ifs at h with hb
  rw [← Lead.single.inj h, hvalid _ hb]

/-- Characters below 0x80 have one byte each. -/
theorem map_toNat_of_decode? (h : decode? bs = some cs)
    (hcs : ∀ c ∈ cs, c.toNat ≠ 0 ∧ c.toNat < 0x80) : bs.map (·.toNat) = cs.map (·.toNat) := by
  induction bs generalizing cs with
  | nil =>
    obtain rfl := Option.some.inj h
    rfl
  | cons b bs ih =>
    rw [decode?_eq_some_iff] at h
    cases hlead : Lead.ofByte b with
    | single c =>
      rw [scan_single hlead] at h
      obtain ⟨c', cs, rfl⟩ := List.exists_cons_of_ne_nil (l := cs) (by rintro rfl; cases h)
      obtain ⟨hc, hbs⟩ := List.cons.inj h
      obtain rfl := Option.some.inj hc
      rw [List.map_cons, List.map_cons, toNat_of_lead hlead,
        ih (decode?_eq_some_iff.mpr hbs) (List.forall_mem_cons.mp hcs).2]
    | several p =>
      rw [scan_several hlead] at h
      obtain ⟨x, hx, hwide⟩ := exists_of_wide (wide_of_lead hlead) bs
      rw [h] at hx
      obtain ⟨c, hc, rfl⟩ := List.mem_map.mp hx
      have hascii := hcs c hc
      have hc' := hwide c rfl
      omega
    | illFormed =>
      have hscan : scan none (b :: bs) = none :: scan none bs := by
        simp [scan, step, start, hlead]
      rw [hscan] at h
      cases cs with
      | nil => cases h
      | cons => cases h

theorem decode?_eq_none_iff : decode? bs = none ↔ none ∈ scan none bs := by
  constructor
  · intro h
    by_contra hmem
    have hsome : scan none bs = ((scan none bs).map (·.getD 'a')).map some := by
      rw [List.map_map]
      refine (List.map_id _).symm.trans (List.map_congr_left fun x hx => ?_)
      cases x with
      | none => exact absurd hx hmem
      | some c => rfl
    rw [decode?_eq_some_iff.mpr hsome] at h
    cases h
  · intro hmem
    cases h : decode? bs with
    | none => rfl
    | some cs =>
      rw [decode?_eq_some_iff.mp h] at hmem
      simp at hmem

/-- Only bytes above 0x7F go on with an unfinished character. -/
def Continued (p : Option Partial) : Prop := ∀ q ∈ p, 0x80 ≤ q.low.toNat

theorem continued_of_lead (h : Lead.ofByte b = .several p) : 0x80 ≤ p.low.toNat := by
  unfold Lead.ofByte at h
  dsimp only at h
  split_ifs at h
  all_goals
    rw [← Lead.several.inj h]
    dsimp only
    decide

theorem continued_start (b : UInt8) : Continued (start b).2 := by
  rintro q hq
  unfold start at hq
  split at hq
  · cases hq
  · rename_i hlead
    cases hq
    exact continued_of_lead hlead
  · cases hq

theorem continued_step (p : Option Partial) (b : UInt8) : Continued (step p b).2 := by
  cases p with
  | none => exact continued_start b
  | some p =>
    rw [step]
    split_ifs
    · intro q hq
      cases hq
    · intro q hq
      rw [← Option.some.inj hq]
      exact Nat.le_refl 0x80
    · exact continued_start b

/-- A byte below 0x80 mends nothing that is ill-formed before it. -/
theorem none_mem_scan_concat {p : Option Partial} (hp : Continued p) (hb : b.toNat < 0x80)
    (h : none ∈ scan p as) : none ∈ scan p (as ++ [b]) := by
  induction as generalizing p with
  | nil =>
    cases p with
    | none => cases h
    | some p =>
      have hlow : 0x80 ≤ p.low.toNat := hp p rfl
      have hout : ¬ (p.low ≤ b && b ≤ p.high) = true := by
        simp only [Bool.and_eq_true, decide_eq_true_eq, UInt8.le_iff_toNat_le]
        omega
      simp [scan, step, hout]
  | cons a as ih =>
    rw [scan, List.mem_append] at h
    rw [List.cons_append, scan, List.mem_append]
    exact h.imp_right fun h => ih (continued_step p a) h

theorem lead_of_lt (hb : b.toNat < 0x80) : Lead.ofByte b = .single (Char.ofNat b.toNat) := by
  simp [Lead.ofByte, hb]

/-- A byte below 0x80 at the end is a character of its own. -/
theorem decode?_concat (hb : b.toNat < 0x80) (as : List UInt8) :
    decode? (as ++ [b]) = (decode? as).map (· ++ [Char.ofNat b.toNat]) := by
  cases h : decode? as with
  | none =>
    have hmem : none ∈ scan none (as ++ [b]) :=
      none_mem_scan_concat nofun hb (decode?_eq_none_iff.mp h)
    exact decode?_eq_none_iff.mpr hmem
  | some cs =>
    rw [decode?_eq_some_iff] at h
    have hnone : none ∉ scan none as := by simp [h]
    refine decode?_eq_some_iff.mpr ?_
    rw [scan_append hnone, scan_single (lead_of_lt hb), h, List.map_append]
    rfl

end LoadReport.Utf8
