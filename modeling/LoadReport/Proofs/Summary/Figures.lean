import LoadReport.Proofs.Run.Finite
import LoadReport.Proofs.Sample.Finite
import LoadReport.Proofs.Summary.Endpoints

/-! # The figures of a whole run are numbers

The seconds are a quotient of finite floats with a divisor other than zero, so are the percentages,
which are left out without requests, and the throughput is only computed over a positive time.
-/

namespace LoadReport.Summary

open Binary64

variable {r : Run} {s : Settings} {start finish : Timestamp} {part requests : ℕ}

theorem isFinite_secondsBetween (start finish : Timestamp) :
    (secondsBetween start finish).isFinite = true := by
  have h := natAbs_getD_microseconds?_lt (finish.nanosecondsSince start)
  exact ((is_ofInt h).div_ofNat h (by decide) (by decide)).isFinite

theorem isFinite_seconds (r : Run) (s : Settings) : (of r s).seconds.isFinite = true := by
  dsimp only [of]
  split
  · exact isFinite_secondsBetween _ _
  · decide

theorem isNaN_percentage (hpart : part < 2 ^ 64) (hrequests : requests < 2 ^ 64) :
    (percentage part requests).isNaN = false := by
  unfold percentage
  split_ifs with hzero
  · decide
  · have hpos : (2 : ℚ) ^ (0 : ℤ) ≤ requests := by exact_mod_cast Nat.pos_of_ne_zero hzero
    have hquotient : (Float.ofNat part / Float.ofNat requests).isNaN = false :=
      isNaN_div (isNaN_of_isFinite (is_ofNat_of_lt hpart).isFinite) (is_ofNat_of_lt hrequests)
        ((two_zpow_pos 0).trans_le (two_zpow_le_nearest (by decide) hpos))
    exact isNaN_mul hquotient (is_ofNat_of_small (n := 100) (by decide)) (by norm_num)

def figures (t : Summary) : List Float :=
  [t.seconds, t.seconds / 60, t.failedRate, t.errorRate, t.throughput]

/-- No figure of a run whose points a machine word counts is NaN. -/
theorem isNaN_of_mem_figures (h : r.Bounded) : ∀ x ∈ (of r s).figures, x.isNaN = false := by
  have hseconds := isFinite_seconds r s
  have hcount (name : String) : countOnes (r.metrics.points name) < 2 ^ 64 :=
    List.countP_le_length.trans_lt (h.length name)
  have hminutes : ((of r s).seconds / 60).isNaN = false :=
    isNaN_div (isNaN_of_isFinite hseconds) (is_ofNat_of_small (n := 60) (by decide)) (by norm_num)
  have hthroughput : (of r s).throughput.isNaN = false := by
    change Float.isNaN (if 0 < (of r s).seconds then _ else _) = false
    split_ifs with hpos
    · exact isNaN_div_of_pos (is_ofNat_of_lt (h.length _)).isFinite hpos
    · decide
  simp only [figures, List.forall_mem_cons]
  exact ⟨isNaN_of_isFinite hseconds, hminutes, isNaN_percentage (hcount _) (h.length _),
    isNaN_percentage (hcount _) (h.length _), hthroughput, List.forall_mem_nil _⟩

end LoadReport.Summary
