import LoadReport.Utf8
import Mathlib.Tactic.IntervalCases

/-! # Encoding and reading UTF-8

The bytes of a text are read back as its characters. Byte sequences of texts are ordered like the
texts themselves, since the first byte of a character tells how many there are.
-/

namespace LoadReport.Utf8

variable {c d : Char} {cs ds : List Char} {bs bs' : List UInt8} {p : Partial} {n : ℕ}

theorem encode_eq (s : String) : encode s = s.toList.flatMap String.utf8EncodeChar := by
  rw [encode, String.toUTF8_eq_toByteArray, ← String.utf8Encode_toList, List.utf8Encode,
    List.toList_data_toByteArray]

theorem lead_single (h : n < 0x80) : Lead.ofByte (UInt8.ofNat n) = .single (Char.ofNat n) := by
  have hn : (UInt8.ofNat n).toNat = n := UInt8.toNat_ofNat_of_lt (Nat.lt_trans h (by decide))
  rw [Lead.ofByte, hn, if_pos h]

theorem lead_two (h : 2 ≤ n) (h' : n < 0x20) :
    Lead.ofByte (UInt8.ofNat (n + 0xC0)) = .several ⟨n, 1, 0x80, 0xBF⟩ := by
  interval_cases n <;> rfl

theorem lead_three (h : n < 0x10) :
    Lead.ofByte (UInt8.ofNat (n + 0xE0)) =
      .several ⟨n, 2, if n = 0 then 0xA0 else 0x80, if n = 0xD then 0x9F else 0xBF⟩ := by
  interval_cases n <;> rfl

theorem lead_four (h : n < 5) :
    Lead.ofByte (UInt8.ofNat (n + 0xF0)) =
      .several ⟨n, 3, if n = 0 then 0x90 else 0x80, if n = 4 then 0x8F else 0xBF⟩ := by
  interval_cases n <;> rfl

theorem scan_single {b : UInt8} (h : Lead.ofByte b = .single c) :
    scan none (b :: bs) = some c :: scan none bs := by
  simp [scan, step, start, h]

theorem scan_several {b : UInt8} (h : Lead.ofByte b = .several p) :
    scan none (b :: bs) = scan (some p) bs := by
  simp [scan, step, start, h]

theorem scan_continuation {bits missing : ℕ} {low high : UInt8} (hn : n < 64)
    (hlow : low.toNat ≤ n + 0x80) (hhigh : n + 0x80 ≤ high.toNat) :
    scan (some ⟨bits, missing, low, high⟩) (UInt8.ofNat (n + 0x80) :: bs) =
      if missing ≤ 1 then some (Char.ofNat (bits * 64 + n)) :: scan none bs
      else scan (some ⟨bits * 64 + n, missing - 1, 0x80, 0xBF⟩) bs := by
  have hb : (UInt8.ofNat (n + 0x80)).toNat = n + 0x80 :=
    UInt8.toNat_ofNat_of_lt (Nat.lt_trans (Nat.add_lt_add_right hn 0x80) (by decide))
  have hin : (low ≤ UInt8.ofNat (n + 0x80) && UInt8.ofNat (n + 0x80) ≤ high) = true := by
    simp only [Bool.and_eq_true, decide_eq_true_eq, UInt8.le_iff_toNat_le, hb]
    exact ⟨hlow, hhigh⟩
  simp only [scan, step, hin, hb, if_true, Nat.add_sub_cancel]
  split <;> rfl

/-- The bytes of a character after the second one may have any six bits. -/
theorem scan_next {bits missing : ℕ} (hn : n < 64) :
    scan (some ⟨bits, missing, 0x80, 0xBF⟩) (UInt8.ofNat (n + 0x80) :: bs) =
      if missing ≤ 1 then some (Char.ofNat (bits * 64 + n)) :: scan none bs
      else scan (some ⟨bits * 64 + n, missing - 1, 0x80, 0xBF⟩) bs := by
  have hhigh : (0xBF : UInt8).toNat = 63 + 0x80 := rfl
  exact scan_continuation hn (Nat.le_add_left 0x80 n) (by omega)

/-- The bytes of a character are read back, whatever follows them. -/
theorem scan_utf8EncodeChar (c : Char) (bs : List UInt8) :
    scan none (String.utf8EncodeChar c ++ bs) = some c :: scan none bs := by
  have hvalid : c.val.toNat < 0xD800 ∨ 0xDFFF < c.val.toNat ∧ c.val.toNat < 0x110000 := c.valid
  have hc : Char.ofNat c.val.toNat = c := Char.ofNat_toNat c
  unfold String.utf8EncodeChar
  generalize c.val.toNat = v at *
  dsimp only
  split_ifs with h₁ h₂ h₃
  · rw [List.singleton_append, scan_single (lead_single (by omega)), hc]
  · have hlead : v / 64 % 0x20 = v / 64 := by omega
    have hv : v / 64 * 64 + v % 64 = v := by omega
    rw [hlead, List.cons_append, scan_several (lead_two (by omega) (by omega)),
      List.singleton_append, scan_next (by omega), if_pos (by decide), hv, hc]
  · have hlead : v / 4096 % 0x10 = v / 4096 := by omega
    have hlow : (if v / 4096 = 0 then 0xA0 else 0x80 : UInt8).toNat ≤ v / 64 % 64 + 0x80 := by
      split_ifs <;> simp only [UInt8.reduceToNat] <;> omega
    have hhigh : v / 64 % 64 + 0x80 ≤ (if v / 4096 = 0xD then 0x9F else 0xBF : UInt8).toNat := by
      split_ifs <;> simp only [UInt8.reduceToNat] <;> omega
    have hv : (v / 4096 * 64 + v / 64 % 64) * 64 + v % 64 = v := by omega
    rw [hlead, List.cons_append, scan_several (lead_three (by omega)), List.cons_append,
      scan_continuation (by omega) hlow hhigh, if_neg (by decide), List.singleton_append,
      scan_next (by omega), if_pos (by decide), hv, hc]
  · have hlead : v / 262144 % 8 = v / 262144 := by omega
    have hlow : (if v / 262144 = 0 then 0x90 else 0x80 : UInt8).toNat ≤ v / 4096 % 64 + 0x80 := by
      split_ifs <;> simp only [UInt8.reduceToNat] <;> omega
    have hhigh : v / 4096 % 64 + 0x80 ≤ (if v / 262144 = 4 then 0x8F else 0xBF : UInt8).toNat := by
      split_ifs <;> simp only [UInt8.reduceToNat] <;> omega
    have hv : ((v / 262144 * 64 + v / 4096 % 64) * 64 + v / 64 % 64) * 64 + v % 64 = v := by omega
    rw [hlead, List.cons_append, scan_several (lead_four (by omega)), List.cons_append,
      scan_continuation (by omega) hlow hhigh, if_neg (by decide), List.cons_append,
      scan_next (by omega), if_neg (by decide), List.singleton_append, scan_next (by omega),
      if_pos (by decide), hv, hc]

theorem scan_encode (s : String) : scan none (encode s) = s.toList.map some := by
  rw [encode_eq]
  induction s.toList with
  | nil => rfl
  | cons c cs ih => rw [List.flatMap_cons, scan_utf8EncodeChar, ih, List.map_cons]

theorem decodeLossy_encode (s : String) : decodeLossy (encode s) = s.toList := by
  simp [decodeLossy, scan_encode]

/-- The order of numbers is that of their digits to the base 64. -/
theorem digits_lt {v w : ℕ} (h : v < w) :
    v / 262144 < w / 262144 ∨ v / 262144 = w / 262144 ∧
      (v / 4096 % 64 < w / 4096 % 64 ∨ v / 4096 % 64 = w / 4096 % 64 ∧
        (v / 64 % 64 < w / 64 % 64 ∨ v / 64 % 64 = w / 64 % 64 ∧ v % 64 < w % 64)) := by
  have hv : v / 64 / 64 = v / 4096 := Nat.div_div_eq_div_mul v 64 64
  have hw : w / 64 / 64 = w / 4096 := Nat.div_div_eq_div_mul w 64 64
  have hv' : v / 4096 / 64 = v / 262144 := Nat.div_div_eq_div_mul v 4096 64
  have hw' : w / 4096 / 64 = w / 262144 := Nat.div_div_eq_div_mul w 4096 64
  omega

theorem val_lt (c : Char) : c.val.toNat < 0x110000 := by
  rcases c.valid with h | ⟨_, h⟩
  · exact Nat.lt_trans h (by decide)
  · exact h

theorem utf8EncodeChar_append_lt (h : c < d) :
    String.utf8EncodeChar c ++ bs < String.utf8EncodeChar d ++ bs' := by
  have hdigits := digits_lt h
  have hc := val_lt c
  have hd := val_lt d
  unfold String.utf8EncodeChar
  change c.val.toNat < d.val.toNat at h
  generalize c.val.toNat = v at *
  generalize d.val.toNat = w at *
  have hv : v / 262144 % 8 = v / 262144 := by omega
  have hw : w / 262144 % 8 = w / 262144 := by omega
  have hbyte : ∀ n < 256, (UInt8.ofNat n).toNat = n := fun n hn => UInt8.toNat_ofNat_of_lt hn
  dsimp only
  rw [hv, hw]
  -- A character of fewer bytes has the smaller first byte; otherwise the digits decide.
  split_ifs
  all_goals
    simp only [List.cons_append, List.cons_lt_cons_iff, UInt8.lt_iff_toNat_lt, ← UInt8.toNat_inj]
    repeat rw [hbyte _ (by omega)]
  all_goals omega

theorem flatMap_utf8EncodeChar_lt (h : cs < ds) :
    cs.flatMap String.utf8EncodeChar < ds.flatMap String.utf8EncodeChar := by
  induction h with
  | @nil d ds =>
    rw [List.flatMap_nil, List.flatMap_cons]
    cases hb : String.utf8EncodeChar d with
    | nil => exact absurd hb String.utf8EncodeChar_ne_nil
    | cons b bs => exact .nil
  | rel h => exact utf8EncodeChar_append_lt h
  | cons _ ih => exact List.append_left_lt ih

/-- The order of texts by code points is the order of their bytes. -/
theorem encode_lt_encode {a b : String} (h : a < b) : encode a < encode b := by
  rw [encode_eq, encode_eq]
  exact flatMap_utf8EncodeChar_lt h

end LoadReport.Utf8
