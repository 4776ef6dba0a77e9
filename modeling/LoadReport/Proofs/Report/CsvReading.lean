import LoadReport.Report.CsvReader
import LoadReport.Proofs.Report.Writing

/-! # Reading the table of points

A written field takes a reader from the start of the field to its end and leaves it outside of
quotes, so that the comma or the line feed after it is seen as such. Hence every table of records is
read back, whatever characters its fields have.
-/

namespace LoadReport.Report.Csv

variable {cs ds r : List Char} {s : String} {fields fs : List String} {rs : List (List String)}

theorem needsQuotes_eq_false_iff {c : Char} :
    needsQuotes c = false ↔ c ≠ ',' ∧ c ≠ '"' ∧ c ≠ '\n' ∧ c ≠ '\r' := by
  simp [needsQuotes, and_assoc]

/-- Whether a comma or a line feed at the cursor ends the field. -/
def Cursor.Unquoted : Cursor → Prop
  | .quoted _ => False
  | _ => True

theorem Cursor.Unquoted.readFrom_comma {k : Cursor} (h : k.Unquoted) :
    readFrom k fields (',' :: r) = readFrom .start (k.text :: fields) r := by
  cases k with
  | quoted => exact h.elim
  | start | plain | closing => simp [readFrom]

theorem Cursor.Unquoted.readFrom_lineFeed {k : Cursor} (h : k.Unquoted) :
    readFrom k fields ('\n' :: r) =
      (readFrom .start [] r).map ((k.text :: fields).reverse :: ·) := by
  cases k with
  | quoted => exact h.elim
  | start | plain | closing => simp [readFrom]

theorem readFrom_plain (h : ∀ c ∈ cs, needsQuotes c = false) :
    readFrom (.plain ds) fields (cs ++ r) = readFrom (.plain (cs.reverse ++ ds)) fields r := by
  induction cs generalizing ds with
  | nil => rfl
  | cons c cs ih =>
    obtain ⟨hc, hcs⟩ := List.forall_mem_cons.mp h
    obtain ⟨hcomma, hquote, hfeed, _⟩ := needsQuotes_eq_false_iff.mp hc
    rw [List.cons_append, readFrom, if_neg hquote, ih hcs, List.reverse_cons, List.append_assoc,
      List.singleton_append]
    · exact hcomma
    · exact hfeed

/-- The characters of a field between its two quotes. -/
def doubled (cs : List Char) : List Char :=
  cs.flatMap fun c => if c = '"' then ['"', '"'] else [c]

theorem readFrom_doubled :
    readFrom (.quoted ds) fields (doubled cs ++ '"' :: r) =
      readFrom (.closing (cs.reverse ++ ds)) fields r := by
  induction cs generalizing ds with
  | nil => rfl
  | cons c cs ih =>
    rw [List.reverse_cons, List.append_assoc, List.singleton_append, ← ih]
    by_cases hc : c = '"'
    · subst hc
      rfl
    · have hdoubled : doubled (c :: cs) = c :: doubled cs := by simp [doubled, hc]
      rw [hdoubled, List.cons_append, readFrom]
      exact hc

/-- Whether a field is written without quotes. -/
def Bare (s : String) : Prop := ∀ c ∈ s.toList, needsQuotes c = false

instance (s : String) : Decidable (Bare s) :=
  List.decidableBAll (fun c => needsQuotes c = false) s.toList

theorem Bare.field_eq (h : Bare s) : field s = s := by
  rw [field, if_neg]
  simpa [Bare] using h

theorem toList_field_of_not_bare (h : ¬ Bare s) :
    (field s).toList = '"' :: (doubled s.toList ++ ['"']) := by
  rw [field, if_pos]
  · simp only [String.toList_append, String.toList_ofList]
    rfl
  · simpa [Bare] using h

/-- A written field leaves the reader outside of quotes, with the text of the field. -/
theorem readFrom_field (s : String) (fields : List String) :
    ∃ k : Cursor, k.Unquoted ∧ k.text = s ∧
      ∀ r, readFrom .start fields ((field s).toList ++ r) = readFrom k fields r := by
  by_cases h : Bare s
  · rw [h.field_eq]
    obtain ⟨cs, rfl⟩ : ∃ cs, s = String.ofList cs := ⟨s.toList, String.ofList_toList.symm⟩
    rw [Bare, String.toList_ofList] at h
    rw [String.toList_ofList]
    cases cs with
    | nil => exact ⟨.start, trivial, rfl, fun r => rfl⟩
    | cons c cs =>
      obtain ⟨hc, hcs⟩ := List.forall_mem_cons.mp h
      obtain ⟨hcomma, hquote, hfeed, _⟩ := needsQuotes_eq_false_iff.mp hc
      refine ⟨.plain (c :: cs).reverse, trivial, ?_, fun r => ?_⟩
      · rw [Cursor.text, List.reverse_reverse]
      · rw [List.cons_append, readFrom, readFrom_plain hcs, List.reverse_cons]
        · exact hquote
        · exact hcomma
        · exact hfeed
  · refine ⟨.closing s.toList.reverse, trivial, ?_, fun r => ?_⟩
    · rw [Cursor.text, List.reverse_reverse, String.ofList_toList]
    · rw [toList_field_of_not_bare h, List.cons_append, List.append_assoc, List.singleton_append,
        readFrom, readFrom_doubled, List.append_nil]

theorem readFrom_record (h : fs ≠ []) :
    readFrom .start fields ((record fs).toList ++ r) =
      (readFrom .start [] r).map ((fields.reverse ++ fs) :: ·) := by
  induction fs generalizing fields with
  | nil => exact absurd rfl h
  | cons s fs ih =>
    obtain ⟨k, hk, htext, hread⟩ := readFrom_field s fields
    cases fs with
    | nil =>
      have hrecord : (record [s]).toList ++ r = (field s).toList ++ '\n' :: r := by
        simp [record]
      rw [hrecord, hread, hk.readFrom_lineFeed, htext, List.reverse_cons]
    | cons t fs =>
      have hrecord : (record (s :: t :: fs)).toList ++ r =
          (field s).toList ++ ',' :: ((record (t :: fs)).toList ++ r) := by
        simp [record, String.intercalate_cons_cons]
      rw [hrecord, hread, hk.readFrom_comma, htext, ih (List.cons_ne_nil t fs), List.reverse_cons,
        List.append_assoc, List.singleton_append]

/-- Records that have a field are read back from their table. -/
theorem read?_join (h : ∀ fs ∈ rs, fs ≠ []) : read? (String.join (rs.map record)) = some rs := by
  rw [read?]
  induction rs with
  | nil => rfl
  | cons fs rs ih =>
    obtain ⟨hfs, hrs⟩ := List.forall_mem_cons.mp h
    rw [List.map_cons, String.join_cons, String.toList_append, readFrom_record hfs, ih hrs]
    rfl

example : read? (record ["a,b", "", "\"\r\n"]) = some [["a,b", "", "\"\r\n"]] := by decide

theorem Bare.append {t : String} (hs : Bare s) (ht : Bare t) : Bare (s ++ t) := by
  rw [Bare, String.toList_append]
  exact List.forall_mem_append.mpr ⟨hs, ht⟩

theorem bare_ofList (h : ∀ c ∈ cs, needsQuotes c = false) : Bare (String.ofList cs) := by
  rwa [Bare, String.toList_ofList]

theorem bare_toString (n : ℕ) : Bare (toString n) := by
  refine bare_ofList fun c hc => ?_
  have hdigit : c.isDigit := Nat.isDigit_of_mem_toDigits (by decide) (by decide) hc
  rw [needsQuotes_eq_false_iff]
  refine ⟨?_, ?_, ?_, ?_⟩ <;>
  · rintro rfl
    exact absurd hdigit (by decide)

theorem bare_zeros (n : ℕ) : Bare (Decimal.zeros n) := by
  refine bare_ofList fun c hc => ?_
  rw [List.eq_of_mem_replicate hc]
  rfl

theorem bare_positional (d : Decimal.Scientific) : Bare d.positional := by
  have hdigits := bare_toString d.digits
  rw [Decimal.Scientific.positional]
  split_ifs
  · exact hdigits.append (bare_zeros _)
  · refine Bare.append (Bare.append (bare_ofList ?_) (by decide)) (bare_ofList ?_)
    · exact fun c hc => hdigits c (List.mem_of_mem_take hc)
    · exact fun c hc => hdigits c (List.mem_of_mem_drop hc)
  · exact Bare.append (Bare.append (by decide) (bare_zeros _)) hdigits

/-- Numbers are never quoted. -/
theorem bare_plain (x : Float) : Bare (Decimal.plain x) := by
  rw [Decimal.plain]
  split_ifs
  · decide
  · exact Bare.append (by decide) (by decide)
  · exact Bare.append (by decide) (bare_positional _)
  · exact Bare.append (by decide) (by decide)
  · exact Bare.append (by decide) (bare_positional _)

theorem ne_nil_of_mem {r : Run} {s : Settings} (h : fs ∈ header :: rows r s) : fs ≠ [] := by
  rcases List.mem_cons.mp h with rfl | h
  · exact List.cons_ne_nil _ _
  · obtain ⟨series, _, h⟩ := List.mem_flatMap.mp h
    obtain ⟨p, _, rfl⟩ := List.mem_map.mp h
    exact List.cons_ne_nil _ _

/-- A reader of the table of points finds the header and then one record of five fields for every
point, series by series. The answer is the number of points, and numbers are written as they are. -/
theorem read?_write (run : Run) (s : Settings) :
    ∃ sink records, (write run s).run.run {} = (.ok run.metrics.totalPoints, sink) ∧
      read? sink.text =
        some (["timestamp", "metric", "value", "scenario", "productId"] :: records) ∧
      (records = run.metrics.toList.flatMap fun series => series.points.toList.map fun p =>
        [p.time.getD "", series.name, Decimal.plain p.value,
          (p.tag? s.tags.scenario).getD "", (p.tag? s.tags.product).getD ""]) ∧
      records.length = run.metrics.totalPoints ∧
      ∀ x, field (Decimal.plain x) = Decimal.plain x := by
  refine ⟨_, rows run s, run_write run s, ?_, rfl, length_rows run s, fun x => ?_⟩
  · rw [text_encode]
    exact read?_join fun _ => ne_nil_of_mem
  · exact (bare_plain x).field_eq

end LoadReport.Report.Csv
