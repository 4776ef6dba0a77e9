import LoadReport.Report.Sink
import LoadReport.Proofs.Utf8.Encoding
import Mathlib.Data.List.Basic

/-! # Writing to a sink

An action on sinks is told by the text that it writes, and the texts of its steps make up its own. A
sink without a buffer takes what it has room for, and then the writing ends with its fault. With a
buffer this comes to light later, but once all is flushed the same bytes have been taken.
-/

namespace LoadReport.Report

variable {α β : Type} {x : Writer α} {f : α → Writer β} {a : α} {b : β} {s t : String}
  {limit : Option Limit} {fault : Fault} {m n : ℕ} {bytes bs cs : List UInt8} {σ σ' : Sink}

theorem encode_append (s t : String) : Utf8.encode (s ++ t) = Utf8.encode s ++ Utf8.encode t := by
  simp only [Utf8.encode_eq, String.toList_append, List.flatMap_append]

/-! ## Limits -/

@[simp]
theorem verdict_zero (limit : Option Limit) : verdict limit 0 = .ok () := by
  cases limit with
  | none => rfl
  | some l => simp [verdict]

@[simp]
theorem left_zero (limit : Option Limit) : left limit 0 = limit := by
  cases limit <;> rfl

@[simp]
theorem taken_nil (limit : Option Limit) : taken limit [] = [] := by
  cases limit with
  | none => rfl
  | some l => exact List.take_nil

theorem left_left (limit : Option Limit) (m n : ℕ) :
    left (left limit m) n = left limit (m + n) := by
  cases limit with
  | none => rfl
  | some l => simp only [left, Option.map_some, Nat.sub_sub]

theorem verdict_some_eq_ok_iff {l : Limit} : verdict (some l) n = .ok () ↔ n ≤ l.room := by
  by_cases hn : n ≤ l.room
  · exact iff_of_true (if_pos hn) hn
  · refine iff_of_false (fun h => ?_) hn
    cases (if_neg hn).symm.trans h

theorem verdict_eq_error_iff :
    verdict limit n = .error fault ↔ ∃ l, limit = some l ∧ l.fault = fault ∧ l.room < n := by
  cases limit with
  | none => exact iff_of_false nofun nofun
  | some l =>
    simp only [Option.some.injEq, exists_eq_left']
    by_cases hn : n ≤ l.room
    · refine iff_of_false (fun h => ?_) fun h => absurd hn h.2.not_ge
      cases (if_pos hn).symm.trans h
    · have hverdict : verdict (some l) n = .error l.fault := if_neg hn
      rw [hverdict, Except.error.injEq, and_iff_left (Nat.lt_of_not_le hn)]

theorem verdict_cases (limit : Option Limit) (n : ℕ) :
    verdict limit n = .ok () ∨ ∃ fault, verdict limit n = .error fault := by
  cases verdict limit n with
  | ok u => exact .inl rfl
  | error fault => exact .inr ⟨fault, rfl⟩

theorem verdict_add (h : verdict limit m = .ok ()) (n : ℕ) :
    verdict limit (m + n) = verdict (left limit m) n := by
  cases limit with
  | none => rfl
  | some l =>
    have hm := verdict_some_eq_ok_iff.mp h
    have hfits : m + n ≤ l.room ↔ n ≤ l.room - m := by omega
    exact if_congr hfits rfl rfl

theorem verdict_add_error (h : verdict limit m = .error fault) (n : ℕ) :
    verdict limit (m + n) = .error fault := by
  obtain ⟨l, hl, hfault, hm⟩ := verdict_eq_error_iff.mp h
  exact verdict_eq_error_iff.mpr ⟨l, hl, hfault, Nat.lt_add_right n hm⟩

theorem taken_of_ok (h : verdict limit bytes.length = .ok ()) : taken limit bytes = bytes := by
  cases limit with
  | none => rfl
  | some l => exact List.take_of_length_le (verdict_some_eq_ok_iff.mp h)

theorem taken_append (h : verdict limit bs.length = .ok ()) (cs : List UInt8) :
    taken limit (bs ++ cs) = bs ++ taken (left limit bs.length) cs := by
  cases limit with
  | none => rfl
  | some l =>
    change (bs ++ cs).take l.room = bs ++ cs.take (l.room - bs.length)
    rw [List.take_append, List.take_of_length_le (verdict_some_eq_ok_iff.mp h)]

theorem taken_append_of_error (h : verdict limit bs.length = .error fault) (cs : List UInt8) :
    taken limit (bs ++ cs) = taken limit bs := by
  obtain ⟨l, rfl, -, hroom⟩ := verdict_eq_error_iff.mp h
  exact List.take_append_of_le_length hroom.le

/-- Nothing more is taken after a fault. -/
theorem taken_left_of_error (h : verdict limit n = .error fault) (bytes : List UInt8) :
    taken (left limit n) bytes = [] := by
  obtain ⟨l, rfl, -, hroom⟩ := verdict_eq_error_iff.mp h
  change bytes.take (l.room - n) = []
  rw [Nat.sub_eq_zero_of_le hroom.le, List.take_zero]

theorem left_add_of_error (h : verdict limit m = .error fault) (n : ℕ) :
    left limit (m + n) = left limit m := by
  obtain ⟨l, rfl, -, hroom⟩ := verdict_eq_error_iff.mp h
  have hzero : l.room - (m + n) = l.room - m := by omega
  simp only [left, Option.map_some, hzero]

/-! ## Buffers -/

/-- The sink has taken the bytes without a fault. -/
structure Takes (limit : Option Limit) (bytes : List UInt8) (σ : Sink) : Prop where
  accepted : σ.accepted.toList = bytes
  remaining : σ.limit = left limit bytes.length
  fits : verdict limit bytes.length = .ok ()

/-- The limit has been met on the way through the bytes. -/
structure Fails (limit : Option Limit) (bytes : List UInt8) (fault : Fault) (σ : Sink) : Prop where
  accepted : σ.accepted.toList = taken limit bytes
  remaining : σ.limit = left limit bytes.length
  unfit : verdict limit bytes.length = .error fault
  buffered : σ.buffer.isSome

/-- Some of the bytes have been taken, and the others wait. -/
inductive Holds (limit : Option Limit) : List UInt8 → Sink → Prop
  | mk {bs : List UInt8} {b : Buffer} {σ : Sink} (h : Takes limit bs σ) (hb : σ.buffer = some b) :
    Holds limit (bs ++ b.pending.toList) σ

/-- The bytes have been taken, and nothing waits. -/
inductive Flushed (limit : Option Limit) : List UInt8 → Sink → Prop
  | mk {bs : List UInt8} {capacity : ℕ} {σ : Sink} (h : Takes limit bs σ)
    (hb : σ.buffer = some ⟨capacity, #[]⟩) : Flushed limit bs σ

/-- The answer is `a` and the sink is as `P` says, or the limit has been met. -/
inductive Reaches (limit : Option Limit) (bytes : List UInt8) (a : α) (P : Sink → Prop) :
    Except Fault α × Sink → Prop
  | ok {σ : Sink} (h : P σ) : Reaches limit bytes a P (.ok a, σ)
  | fault {fault : Fault} {σ : Sink} (h : Fails limit bytes fault σ) :
    Reaches limit bytes a P (.error fault, σ)

variable {P Q : Sink → Prop}

theorem Reaches.mono {r : Except Fault α × Sink} (h : Reaches limit bytes a P r)
    (hPQ : ∀ σ, P σ → Q σ) : Reaches limit bytes a Q r := by
  cases h with
  | ok h => exact .ok (hPQ _ h)
  | fault h => exact .fault h

theorem Fails.mono (h : Fails limit bs fault σ) (hbs : bs <+: bytes) :
    Fails limit bytes fault σ := by
  obtain ⟨cs, rfl⟩ := hbs
  constructor
  · rw [h.accepted, taken_append_of_error h.unfit]
  · rw [h.remaining, List.length_append, left_add_of_error h.unfit]
  · rw [List.length_append]
    exact verdict_add_error h.unfit _
  · exact h.buffered

theorem Reaches.bind (hx : Reaches limit bs a P (x.run.run σ)) (hbs : bs <+: bytes)
    (hf : ∀ σ, P σ → Reaches limit bytes b Q ((f a).run.run σ)) :
    Reaches limit bytes b Q ((x >>= f).run.run σ) := by
  rw [ExceptT.run_bind, StateT.run_bind]
  cases hr : x.run.run σ with
  | mk r τ =>
    rw [hr] at hx
    cases hx with
    | ok h => exact hf τ h
    | fault h => exact .fault (h.mono hbs)

theorem Flushed.holds (h : Flushed limit bytes σ) : Holds limit bytes σ := by
  obtain ⟨h, hb⟩ := h
  simpa using Holds.mk h hb

theorem Takes.reaches_accept (h : Takes limit bs σ) (hb : σ.buffer.isSome) (cs : List UInt8) :
    Reaches limit (bs ++ cs) () (fun σ' => Takes limit (bs ++ cs) σ' ∧ σ'.buffer = σ.buffer)
      ((accept cs).run.run σ) := by
  have hremaining : left σ.limit cs.length = left limit (bs ++ cs).length := by
    rw [h.remaining, left_left, List.length_append]
  have haccepted : (σ.accepted ++ taken σ.limit cs).toList = taken limit (bs ++ cs) := by
    rw [taken_append h.fits, ← h.remaining, ← h.accepted]
    simp
  have hverdict : verdict σ.limit cs.length = verdict limit (bs ++ cs).length := by
    rw [List.length_append, verdict_add h.fits, h.remaining]
  change Reaches _ _ _ _ (verdict σ.limit cs.length,
    { σ with accepted := σ.accepted ++ taken σ.limit cs, limit := left σ.limit cs.length })
  rw [hverdict]
  obtain hok | ⟨fault, herror⟩ := verdict_cases limit (bs ++ cs).length
  · rw [hok]
    exact .ok ⟨⟨haccepted.trans (taken_of_ok hok), hremaining, hok⟩, rfl⟩
  · rw [herror]
    exact .fault ⟨haccepted, hremaining, herror, hb⟩

theorem reaches_hold (h : Holds limit bs σ) (cs : List UInt8) :
    Reaches limit (bs ++ cs) () (Holds limit (bs ++ cs)) ((hold cs).run.run σ) := by
  cases h with
  | @mk bs b _ h hb =>
    have hbytes : bs ++ b.pending.toList ++ cs = bs ++ (b.pending ++ cs).toList := by simp
    rw [hbytes]
    refine .ok (.mk (b := { b with pending := b.pending ++ cs }) ?_ (congrArg (Option.map _) hb))
    exact ⟨h.accepted, h.remaining, h.fits⟩

theorem reaches_flush (h : Holds limit bs σ) :
    Reaches limit bs () (Flushed limit bs) (flush.run.run σ) := by
  cases h with
  | @mk bs b _ h hb =>
    let waiting := (b.pending.toList.drop (taken σ.limit b.pending.toList).length).toArray
    let τ : Sink := { σ with buffer := some { b with pending := waiting } }
    have hτ : Takes limit bs τ := ⟨h.accepted, h.remaining, h.fits⟩
    have hrun : flush.run.run σ = (accept b.pending.toList).run.run τ := by
      change flush σ = _
      rw [flush, hb]
      rfl
    rw [hrun]
    refine (hτ.reaches_accept rfl b.pending.toList).mono fun σ' => ?_
    rintro ⟨htakes, hbuffer⟩
    -- All has been accepted, so nothing is left to wait.
    have hall : taken σ.limit b.pending.toList = b.pending.toList := by
      apply taken_of_ok
      rw [h.remaining, ← verdict_add h.fits, ← List.length_append, htakes.fits]
    have hempty : τ.buffer = some ⟨b.capacity, #[]⟩ := by
      simp only [τ, waiting, hall, List.drop_length]
    exact .mk htakes (hbuffer.trans hempty)

theorem reaches_put (h : Holds limit bs σ) (piece : String) :
    Reaches limit (bs ++ Utf8.encode piece) () (Holds limit (bs ++ Utf8.encode piece))
      ((put piece).run.run σ) := by
  have hflush : Reaches limit bs () (Flushed limit bs) (flush.run.run σ) := reaches_flush h
  obtain ⟨b, hb⟩ : ∃ b, σ.buffer = some b := by
    cases h with
    | mk h hb => exact ⟨_, hb⟩
  change Reaches _ _ _ _ (put piece σ)
  unfold put
  simp only [hb]
  split_ifs
  · exact reaches_hold h _
  · exact hflush.bind (List.prefix_append _ _) fun τ hτ => reaches_hold hτ.holds _
  · refine hflush.bind (List.prefix_append _ _) fun τ hτ => ?_
    obtain ⟨hτ, hb⟩ := hτ
    refine (hτ.reaches_accept (Option.isSome_of_mem hb) _).mono fun σ' hσ' => ?_
    exact Flushed.holds (.mk hσ'.1 (hσ'.2.trans hb))

/-! ## Texts -/

/-- Whether there is room for a text. -/
def fits (limit : Option Limit) (s : String) : Except Fault Unit :=
  verdict limit (Utf8.encode s).length

/-- What is taken of a text. -/
def part (limit : Option Limit) (s : String) : List UInt8 := taken limit (Utf8.encode s)

/-- The limit after a text. -/
def after (limit : Option Limit) (s : String) : Option Limit := left limit (Utf8.encode s).length

@[simp]
theorem fits_empty (limit : Option Limit) : fits limit "" = .ok () := verdict_zero limit

@[simp]
theorem part_empty (limit : Option Limit) : part limit "" = [] := taken_nil limit

@[simp]
theorem after_empty (limit : Option Limit) : after limit "" = limit := left_zero limit

theorem fits_cases (limit : Option Limit) (s : String) :
    fits limit s = .ok () ∨ ∃ fault, fits limit s = .error fault :=
  verdict_cases limit _

theorem part_of_ok (h : fits limit s = .ok ()) : part limit s = Utf8.encode s := taken_of_ok h

theorem fits_append (h : fits limit s = .ok ()) (t : String) :
    fits limit (s ++ t) = fits (after limit s) t := by
  rw [fits, encode_append, List.length_append, verdict_add h]
  rfl

theorem fits_append_error (h : fits limit s = .error fault) (t : String) :
    fits limit (s ++ t) = .error fault := by
  rw [fits, encode_append, List.length_append, verdict_add_error h]

theorem part_append (h : fits limit s = .ok ()) (t : String) :
    part limit (s ++ t) = part limit s ++ part (after limit s) t := by
  rw [part_of_ok h, part, encode_append, taken_append h]
  rfl

theorem part_append_of_error (h : fits limit s = .error fault) (t : String) :
    part limit (s ++ t) = part limit s := by
  rw [part, encode_append, taken_append_of_error h]
  rfl

theorem after_append (limit : Option Limit) (s t : String) :
    after limit (s ++ t) = after (after limit s) t := by
  rw [after, encode_append, List.length_append, ← left_left]
  rfl

theorem after_append_of_error (h : fits limit s = .error fault) (t : String) :
    after limit (s ++ t) = after limit s := by
  rw [after, encode_append, List.length_append, left_add_of_error h]
  rfl

/-- The action writes the text and then answers `a`, unless there is no room for all of it. -/
structure Writes (x : Writer α) (text : String) (a : α) : Prop where
  direct : ∀ (accepted : Array UInt8) (limit : Option Limit), x.run.run { accepted, limit } =
    ((fits limit text).map fun _ => a,
      { accepted := accepted ++ part limit text, limit := after limit text })
  buffered : ∀ (limit : Option Limit) (bytes : List UInt8) (σ : Sink), Holds limit bytes σ →
    Reaches limit (bytes ++ Utf8.encode text) a (Holds limit (bytes ++ Utf8.encode text))
      (x.run.run σ)

theorem writes_pure (a : α) : Writes (pure a) "" a := by
  constructor
  · intro accepted limit
    rw [fits_empty, part_empty, after_empty, Array.appendList_nil]
    rfl
  · intro limit bytes σ h
    have hempty : Utf8.encode "" = [] := rfl
    rw [hempty, List.append_nil]
    exact .ok h

theorem map_fits (limit : Option Limit) (s : String) :
    (fits limit s).map (fun _ => ()) = fits limit s := by
  cases fits limit s <;> rfl

theorem writes_put (piece : String) : Writes (put piece) piece () := by
  constructor
  · intro accepted limit
    rw [map_fits]
    rfl
  · intro limit bytes σ h
    exact reaches_put h piece

theorem Writes.bind (hx : Writes x s a) (hf : Writes (f a) t b) : Writes (x >>= f) (s ++ t) b := by
  constructor
  · intro accepted limit
    rw [ExceptT.run_bind, StateT.run_bind, hx.direct]
    obtain hok | ⟨fault, herror⟩ := fits_cases limit s
    · have haccepted : accepted ++ part limit (s ++ t) =
          accepted ++ part limit s ++ part (after limit s) t := by
        rw [part_append hok]
        exact Array.ext' (by simp)
      rw [hok, fits_append hok, haccepted, after_append]
      exact hf.direct _ _
    · rw [herror, fits_append_error herror, part_append_of_error herror,
        after_append_of_error herror]
      rfl
  · intro limit bytes σ h
    rw [encode_append, ← List.append_assoc]
    exact (hx.buffered limit bytes σ h).bind (List.prefix_append _ _) fun τ => hf.buffered limit _ τ

theorem Writes.cast (h : Writes x s a) (hs : s = t) : Writes x t a := hs ▸ h

theorem writes_putAll (ps : List String) : Writes (putAll ps) (String.join ps) () := by
  induction ps with
  | nil => exact writes_pure ()
  | cons p ps ih =>
    rw [String.join_cons]
    exact (writes_put p).bind ih

/-- A loop writes what its turns write, one after another. -/
theorem writes_forIn {l : List β} {f : β → α → Writer (ForInStep α)} {piece : β → String}
    (step : α → β → α) (hf : ∀ x a, Writes (f x a) (piece x) (.yield (step a x))) (a : α) :
    Writes (forIn l a f) (String.join (l.map piece)) (l.foldl step a) := by
  induction l generalizing a with
  | nil => exact writes_pure a
  | cons x l ih =>
    rw [List.forIn_cons, List.map_cons, String.join_cons, List.foldl_cons]
    exact (hf x a).bind (ih (step a x))

/-! ## The last flush -/

theorem flush_of_taken_nil {b : Buffer} (hb : σ.buffer = some b)
    (hnone : taken σ.limit b.pending.toList = [])
    (hleft : left σ.limit b.pending.toList.length = σ.limit) :
    (flush.run.run σ).2.accepted = σ.accepted ∧ (flush.run.run σ).2.limit = σ.limit := by
  have hrun : (flush.run.run σ).2 = { σ with
      accepted := σ.accepted ++ taken σ.limit b.pending.toList
      limit := left σ.limit b.pending.toList.length
      buffer := some { b with
        pending := (b.pending.toList.drop (taken σ.limit b.pending.toList).length).toArray } } := by
    change (flush σ).2 = _
    rw [flush, hb]
    rfl
  rw [hrun, hnone, hleft, Array.appendList_nil]
  exact ⟨rfl, rfl⟩

/-- Nothing waits any more. -/
theorem Flushed.flush (h : Flushed limit bytes σ) :
    (flush.run.run σ).2.accepted.toList = taken limit bytes ∧
      (flush.run.run σ).2.limit = left limit bytes.length := by
  obtain ⟨h, hb⟩ := h
  obtain ⟨haccepted, hlimit⟩ := flush_of_taken_nil hb (taken_nil _) (left_zero _)
  rw [haccepted, hlimit, h.accepted, taken_of_ok h.fits]
  exact ⟨rfl, h.remaining⟩

/-- What waits is not taken any more. -/
theorem Fails.flush (h : Fails limit bytes fault σ) :
    (flush.run.run σ).2.accepted.toList = taken limit bytes ∧
      (flush.run.run σ).2.limit = left limit bytes.length := by
  obtain ⟨b, hb⟩ := Option.isSome_iff_exists.mp h.buffered
  have hnone : taken σ.limit b.pending.toList = [] := by
    rw [h.remaining, taken_left_of_error h.unfit]
  have hleft : left σ.limit b.pending.toList.length = σ.limit := by
    rw [h.remaining, left_left, left_add_of_error h.unfit]
  obtain ⟨haccepted, hlimit⟩ := flush_of_taken_nil hb hnone hleft
  rw [haccepted, hlimit]
  exact ⟨h.accepted, h.remaining⟩

/-- Written through a buffer, the text fares as if there were none: the fault comes to light when
the buffer is flushed, at the latest. -/
theorem Writes.flushed (h : Writes x s a) (limit : Option Limit) (capacity : ℕ) :
    ∃ σ, (do
        let a ← x
        flush
        return a : Writer α).run.run { limit, buffer := some ⟨capacity, #[]⟩ } =
          ((fits limit s).map fun _ => a, σ) ∧
      (flush.run.run σ).2.accepted.toList = part limit s ∧
      (flush.run.run σ).2.limit = after limit s := by
  let τ : Sink := { limit, buffer := some ⟨capacity, #[]⟩ }
  have hτ : Takes limit [] τ := ⟨rfl, (left_zero limit).symm, verdict_zero limit⟩
  have hx : Reaches limit (Utf8.encode s) a (Holds limit (Utf8.encode s)) (x.run.run τ) :=
    h.buffered limit [] τ (Flushed.holds (.mk hτ rfl))
  have hall : Reaches limit (Utf8.encode s) a (Flushed limit (Utf8.encode s))
      ((do
        let a ← x
        flush
        return a : Writer α).run.run τ) := by
    refine hx.bind List.prefix_rfl fun σ hσ => ?_
    exact (reaches_flush hσ).bind List.prefix_rfl fun ρ hρ => .ok hρ
  revert hall
  generalize StateT.run (ExceptT.run _) τ = r
  intro hall
  cases hall with
  | @ok σ hσ =>
    refine ⟨σ, ?_, hσ.flush⟩
    obtain ⟨hσ, -⟩ := hσ
    rw [fits, hσ.fits]
    rfl
  | @fault fault σ hσ =>
    refine ⟨σ, ?_, hσ.flush⟩
    rw [fits, hσ.unfit]
    rfl

theorem text_encode (s : String) : Sink.text { accepted := (Utf8.encode s).toArray } = s := by
  rw [Sink.text, List.toList_toArray, Utf8.decodeLossy_encode, String.ofList_toList]

end LoadReport.Report
