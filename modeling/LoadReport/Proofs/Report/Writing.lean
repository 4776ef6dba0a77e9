import LoadReport.Proofs.MetricSet.Contents
import LoadReport.Proofs.Report.Sink
import LoadReport.Report.Console
import LoadReport.Report.Csv

/-! # Writing reports

The console report and the table of points are written piece by piece, in loops over groups, series
and points. All the pieces together are the text of the report, so a sink that fails after some
number of bytes has just these bytes of it.
-/

namespace LoadReport.Report

variable {α : Type} {x : Writer α} {a : α} {s : String}

namespace Console

def textOf (ls : List String) : String := String.join (ls.map (· ++ "\n"))

@[simp]
theorem textOf_append (ls ms : List String) : textOf (ls ++ ms) = textOf ls ++ textOf ms := by
  rw [textOf, List.map_append, String.join_append]
  rfl

theorem writes_putLine (l : String) : Writes (putLine l) (textOf [l]) () := by
  have htext : l ++ "\n" = textOf [l] := by simp [textOf]
  exact (writes_put _).cast htext

theorem writes_putLines (ls : List String) : Writes (putLines ls) (textOf ls) () :=
  writes_putAll _

theorem writes_section (o : Option Statistics) (f : Statistics → List String) :
    Writes (o.forM fun t => putLines (f t)) (textOf ((o.map f).getD [])) () := by
  cases o with
  | none => exact writes_pure ()
  | some t => exact writes_putLines (f t)

/-- The lines of a group in a table: none if it has no durations. -/
def groupLines (keyWidth : ℕ) (e : String × Group) : List String :=
  ((Statistics.of? e.2.durations.toList).map fun t =>
    [tableRow keyWidth (Row.of e.1 e.2.count t)]).getD []

theorem join_groupLines (keyWidth : ℕ) (groups : List (String × Group)) :
    String.join (groups.map fun e => textOf (groupLines keyWidth e)) =
      textOf ((rows groups).map (tableRow keyWidth)) := by
  induction groups with
  | nil => rfl
  | cons e groups ih =>
    have hrows : (rows (e :: groups)).map (tableRow keyWidth) =
        groupLines keyWidth e ++ (rows groups).map (tableRow keyWidth) := by
      rw [groupLines]
      cases ht : Statistics.of? e.2.durations.toList <;> simp [rows, ht]
    rw [List.map_cons, String.join_cons, ih, hrows, textOf_append]

theorem writes_putTable (heading keyLabel : String) (keyWidth : ℕ)
    (groups : List (String × Group)) :
    Writes (putTable heading keyLabel keyWidth groups)
      (textOf (groupTable heading keyLabel keyWidth groups)) () := by
  rw [groupTable, textOf_append, textOf_append, ← join_groupLines, String.append_assoc]
  apply (writes_putLines _).bind
  apply Writes.bind (a := PUnit.unit) _ (writes_putLine "")
  apply writes_forIn fun u _ => u
  rintro ⟨key, g⟩ u
  dsimp only [groupLines]
  cases Statistics.of? g.durations.toList with
  | none => exact writes_pure _
  | some t =>
    apply Writes.cast _ String.append_empty
    apply (writes_putLine _).bind
    exact writes_pure _

theorem writes_groups (t : GroupTable) (heading keyLabel : String) (keyWidth : ℕ)
    (groups : List (String × Group)) :
    Writes (if t.isEmpty then pure () else putTable heading keyLabel keyWidth groups)
      (textOf (if t.isEmpty then [] else groupTable heading keyLabel keyWidth groups)) () := by
  split
  · exact writes_pure ()
  · exact writes_putTable heading keyLabel keyWidth groups

/-- All of the report is written. -/
theorem writes_write (r : Run) (s : Settings) : Writes (write r s) (text r s) () := by
  have htext : text r s = textOf (lines r s) := rfl
  simp only [htext, lines, textOf_append, String.append_assoc]
  apply (writes_putLines _).bind
  apply (writes_putLines _).bind
  apply (writes_section _ _).bind
  apply (writes_section _ _).bind
  apply (writes_groups ..).bind
  apply (writes_groups ..).bind
  apply writes_putLines

end Console

namespace Csv

def seriesText (tags : TagKeys) (series : Series) : String :=
  String.join (series.points.toList.map fun p => record (fields tags series.name p))

theorem text_eq (r : Run) (s : Settings) :
    text r s = record header ++ String.join (r.metrics.toList.map (seriesText s.tags)) := by
  rw [text, pieces, List.map_cons, String.join_cons, rows]
  congr 1
  induction r.metrics.toList with
  | nil => rfl
  | cons series l ih =>
    rw [List.flatMap_cons, List.map_append, String.join_append, ih, List.map_cons, String.join_cons,
      List.map_map]
    rfl

theorem writes_points (tags : TagKeys) (series : Series) (n : ℕ) :
    Writes
      (forIn series.points n fun p n => do
        put (record (fields tags series.name p))
        pure (ForInStep.yield (n + 1)))
      (seriesText tags series) (n + series.points.size) := by
  have hcount : series.points.toList.foldl (fun n _ => n + 1) n = n + series.points.size := by
    rw [List.foldl_add_const, one_mul, Array.length_toList]
  rw [← Array.forIn_toList, ← hcount]
  apply writes_forIn fun n _ => n + 1
  intro p n
  apply Writes.cast _ String.append_empty
  apply (writes_put _).bind
  exact writes_pure _

/-- All of the records are written, and those of points are counted. -/
theorem writes_write (r : Run) (s : Settings) :
    Writes (write r s) (text r s) r.metrics.totalPoints := by
  rw [text_eq, MetricSet.totalPoints, ← Array.foldl_toList]
  apply (writes_put _).bind
  apply Writes.cast _ String.append_empty
  apply Writes.bind _ (writes_pure _)
  apply writes_forIn fun n (series : Series) => n + series.points.size
  intro series n
  apply Writes.cast _ String.append_empty
  apply (writes_points s.tags series n).bind
  exact writes_pure _

theorem length_rows (r : Run) (s : Settings) : (rows r s).length = r.metrics.totalPoints := by
  rw [MetricSet.totalPoints_eq, rows, List.length_flatMap]
  simp

theorem run_write (r : Run) (s : Settings) :
    (write r s).run.run {} =
      (.ok r.metrics.totalPoints, { accepted := (Utf8.encode (text r s)).toArray }) := by
  have happend : (#[] : Array UInt8) ++ Utf8.encode (text r s) = (Utf8.encode (text r s)).toArray :=
    Array.ext' (by simp)
  rw [← happend]
  exact (writes_write r s).direct #[] none

end Csv

/-- A sink without a limit gets the text, and the action answers `a`. A sink that accepts `n` bytes
gets the first `n` of them; the action answers `a` if there are no more, and the fault of the sink
otherwise. -/
structure LosesNothing (x : Writer α) (text : String) (a : α) : Prop where
  unlimited : ∃ sink, x.run.run {} = (.ok a, sink) ∧ sink.accepted.toList = Utf8.encode text
  limited : ∀ (n : ℕ) (fault : Fault), ∃ answer sink,
    x.run.run { limit := some ⟨n, fault⟩ } = (answer, sink) ∧
      sink.accepted.toList = (Utf8.encode text).take (min n (Utf8.encode text).length) ∧
      (answer = .ok a ↔ (Utf8.encode text).length ≤ n) ∧
      (answer = .error fault ↔ n < (Utf8.encode text).length)

theorem Writes.losesNothing (h : Writes x s a) : LosesNothing x s a := by
  constructor
  · exact ⟨_, h.direct #[] none, by simp [part, taken]⟩
  · intro n fault
    have hfits : fits (some ⟨n, fault⟩) s =
        if (Utf8.encode s).length ≤ n then .ok () else .error fault := rfl
    refine ⟨_, _, h.direct #[] (some ⟨n, fault⟩), ?_, ?_, ?_⟩
    · rw [← List.take_eq_take_min]
      simp [part, taken]
    · rw [hfits]
      split <;> simp_all [Except.map]
    · rw [hfits]
      split <;> simp_all [Except.map]

/-- Writing either report loses nothing, whatever the run, the settings and the room in the sink.
The table of points is answered by the number of points. -/
theorem losesNothing_write (r : Run) (s : Settings) :
    LosesNothing (Console.write r s) (Console.text r s) () ∧
      LosesNothing (Csv.write r s) (Csv.text r s) r.metrics.totalPoints :=
  ⟨(Console.writes_write r s).losesNothing, (Csv.writes_write r s).losesNothing⟩

end LoadReport.Report
