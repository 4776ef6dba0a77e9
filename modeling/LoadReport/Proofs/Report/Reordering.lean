import LoadReport.Proofs.Summary.Reordering

/-! # Reports do not depend on the order of lines

The page shows nothing that the order of lines could change. The console text shows the local time
of the first and the last instant and the order of products; where neither can vary, it is the same
as well.
-/

namespace LoadReport.Report

variable {r r' : Run} {s : Settings}

theorem Html.text_eq_of_reordered (h : r.Reordered r') : text r s = text r' s := by
  simp only [text, lines, opening, headlines, Statistics.of?_eq_of_perm (h.values _),
    (h.points _).length_eq, rows_eq_of_tallies h.scenarios, scenarios]

theorem Console.text_eq_of_reordered (h : r.Reordered r')
    (ho : ∀ t ∈ Summary.times r s, ∀ u ∈ Summary.times r s, t.offset = u.offset)
    (hn : ∀ k ∈ r.products, ∀ l ∈ r.products, productNumber k = productNumber l → k = l) :
    text r s = text r' s := by
  have hproducts := tallies_products_eq h.products hn
  simp only [text, pieces, lines, Summary.of_eq_of_reordered h ho,
    Statistics.of?_eq_of_perm (h.values _), isEmpty_eq_of_tallies h.scenarios,
    isEmpty_eq_of_tallies h.products, groupTable, scenarios, rows_eq_of_tallies h.scenarios,
    rows_eq_of_tallies hproducts]

/-- The lines of a results file in another order give the same page and the same figures. They give
the same console text if all timestamps have one offset and all products differ in number. -/
theorem eq_of_lines_perm (s : Settings) {ls ls' : List (List UInt8)} (h : ls.Perm ls') :
    Html.text (Run.ofBytes s (Run.unlines ls)) s = Html.text (Run.ofBytes s (Run.unlines ls')) s ∧
      Summary.SameFigures (Summary.of (Run.ofBytes s (Run.unlines ls)) s)
        (Summary.of (Run.ofBytes s (Run.unlines ls')) s) ∧
      ((∀ t ∈ Summary.times (Run.ofBytes s (Run.unlines ls)) s,
          ∀ u ∈ Summary.times (Run.ofBytes s (Run.unlines ls)) s, t.offset = u.offset) →
        (∀ k ∈ (Run.ofBytes s (Run.unlines ls)).products,
          ∀ l ∈ (Run.ofBytes s (Run.unlines ls)).products,
            productNumber k = productNumber l → k = l) →
        Console.text (Run.ofBytes s (Run.unlines ls)) s =
          Console.text (Run.ofBytes s (Run.unlines ls')) s) := by
  have hr := Run.reordered_unlines (s := s) h
  exact ⟨Html.text_eq_of_reordered hr, Summary.sameFigures_of_reordered hr,
    Console.text_eq_of_reordered hr⟩

def loadLine : List UInt8 := Utf8.encode
  ("\x7b\"type\":\"Point\",\"metric\":\"http_req_duration\",\"data\":\x7b\"value\":120," ++
    "\"time\":\"2024-01-01T00:00:05Z\"," ++
    "\"tags\":\x7b\"scenario\":\"load\",\"productId\":\"42\"\x7d\x7d\x7d")

def spikeLine : List UInt8 := Utf8.encode
  ("\x7b\"type\":\"Point\",\"metric\":\"http_req_duration\",\"data\":\x7b\"value\":80.5," ++
    "\"time\":\"2024-01-01T00:00:02Z\"," ++
    "\"tags\":\x7b\"scenario\":\"spike\",\"productId\":\"x\"\x7d\x7d\x7d")

/-- A load and a spike, seen in either order. -/
theorem eq_of_swapped_lines :
    [loadLine, spikeLine].Perm [spikeLine, loadLine] ∧
      (∀ t ∈ Summary.times (Run.ofBytes {} (Run.unlines [loadLine, spikeLine])) {},
        ∀ u ∈ Summary.times (Run.ofBytes {} (Run.unlines [loadLine, spikeLine])) {},
          t.offset = u.offset) ∧
      (∀ k ∈ (Run.ofBytes {} (Run.unlines [loadLine, spikeLine])).products,
        ∀ l ∈ (Run.ofBytes {} (Run.unlines [loadLine, spikeLine])).products,
          productNumber k = productNumber l → k = l) ∧
      Html.text (Run.ofBytes {} (Run.unlines [loadLine, spikeLine])) {} =
        Html.text (Run.ofBytes {} (Run.unlines [spikeLine, loadLine])) {} ∧
      Summary.SameFigures (Summary.of (Run.ofBytes {} (Run.unlines [loadLine, spikeLine])) {})
        (Summary.of (Run.ofBytes {} (Run.unlines [spikeLine, loadLine])) {}) ∧
      Console.text (Run.ofBytes {} (Run.unlines [loadLine, spikeLine])) {} =
        Console.text (Run.ofBytes {} (Run.unlines [spikeLine, loadLine])) {} := by
  have h : [loadLine, spikeLine].Perm [spikeLine, loadLine] := .swap ..
  obtain ⟨hpage, hfigures, hconsole⟩ := eq_of_lines_perm {} h
  have ho : ∀ t ∈ Summary.times (Run.ofBytes {} (Run.unlines [loadLine, spikeLine])) {},
      ∀ u ∈ Summary.times (Run.ofBytes {} (Run.unlines [loadLine, spikeLine])) {},
        t.offset = u.offset := by
    simp only [Summary.times, Run.points_ofBytes]
    decide +kernel
  have hn : ∀ k ∈ (Run.ofBytes {} (Run.unlines [loadLine, spikeLine])).products,
      ∀ l ∈ (Run.ofBytes {} (Run.unlines [loadLine, spikeLine])).products,
        productNumber k = productNumber l → k = l := by
    simp only [Run.products_ofBytes, Run.points_ofBytes, GroupTable.mem_ofPoints]
    decide +kernel
  exact ⟨h, ho, hn, hpage, hfigures, hconsole ho hn⟩

end LoadReport.Report
