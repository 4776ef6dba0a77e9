import LoadReport.Proofs.Report.PlainText
import LoadReport.Proofs.Sample.Order

/-! # The markup of the page

Every line of the page closes its tags, so the page is read line by line. Names and figures stand
between a tag and the next one and add none, so the tags depend on the number of rows alone.
-/

namespace LoadReport.Report.Html

open Markup

variable {r : Run} {s : Settings} {pre m post : String}

def lineTokens (l : String) : List Token := tokens (l ++ "\n")

theorem lineTokens_ofList (cs : List Char) :
    lineTokens (String.ofList cs) = tokensFrom none (cs ++ ['\n']) := by
  rw [lineTokens, tokens, String.toList_append, String.toList_ofList]
  rfl

theorem lineTokens_element (hpre : Closed pre) (hm : Plain m) :
    lineTokens (pre ++ m ++ post) = tokens pre ++ (m.toList.map .char ++ lineTokens post) := by
  rw [lineTokens, String.append_assoc, String.append_assoc, tokens_append hpre,
    tokens_append (closed_of_plain hm), tokens_of_plain hm, lineTokens]

/-- Lines that close all their tags, which are the given ones. -/
structure Reads (ls ts : List String) : Prop where
  closed : ∀ l ∈ ls, Closed l
  tags_eq : tagsOf (ls.flatMap lineTokens) = ts

namespace Reads

variable {ls ms ts us : List String} {cs ds : List Char}

theorem nil : Reads [] [] := ⟨List.forall_mem_nil _, rfl⟩

theorem of_eq (h : Reads ls ts) (he : ts = us) : Reads ls us := he ▸ h

theorem append (hl : Reads ls ts) (hm : Reads ms us) : Reads (ls ++ ms) (ts ++ us) := by
  constructor
  · exact List.forall_mem_append.mpr ⟨hl.closed, hm.closed⟩
  · rw [List.flatMap_append, tagsOf_append, hl.tags_eq, hm.tags_eq]

theorem cons (h : stateFrom none cs = none) (hl : Reads ls ts) :
    Reads (String.ofList cs :: ls) (tagsOf (tokensFrom none (cs ++ ['\n'])) ++ ts) := by
  constructor
  · exact List.forall_mem_cons.mpr ⟨closed_ofList h, hl.closed⟩
  · rw [List.flatMap_cons, tagsOf_append, hl.tags_eq, lineTokens_ofList]

theorem plain (h : ∀ l ∈ ls, Plain l) : Reads ls [] := by
  constructor
  · exact fun l hl => closed_of_plain (h l hl)
  · rw [tagsOf_flatMap, List.flatMap_eq_nil_iff]
    intro l hl
    have hline : Plain (l ++ "\n") := occurrences_append_eq_zero.mpr ⟨h l hl, rfl⟩
    rw [lineTokens, tokens_of_plain hline, tagsOf_chars]

theorem flatMap_of_forall {α : Type*} {l : List α} {f : α → List String}
    (h : ∀ x ∈ l, Reads (f x) ts) : Reads (l.flatMap f) (List.replicate l.length ts).flatten := by
  induction l with
  | nil => exact nil
  | cons x l ih =>
    obtain ⟨hx, hl⟩ := List.forall_mem_cons.mp h
    rw [List.flatMap_cons, List.length_cons, List.replicate_succ, List.flatten_cons]
    exact hx.append (ih hl)

/-- A plain text between two parts of a line adds no tag. -/
theorem element (hpre : stateFrom none cs = none)
    (hm : Plain m) (hpost : stateFrom none ds = none) (hl : Reads ls ts) :
    Reads ((String.ofList cs ++ m ++ String.ofList ds) :: ls)
      (tagsOf (tokensFrom none cs) ++ tagsOf (tokensFrom none (ds ++ ['\n'])) ++ ts) := by
  obtain ⟨hrest, htags⟩ := cons hpost hl
  obtain ⟨hd, hls⟩ := List.forall_mem_cons.mp hrest
  constructor
  · have hclosed := ((closed_ofList hpre).append (closed_of_plain hm)).append hd
    exact List.forall_mem_cons.mpr ⟨hclosed, hls⟩
  · rw [List.flatMap_cons, tagsOf_append] at htags
    rw [List.flatMap_cons, lineTokens_element (closed_ofList hpre) hm, tagsOf_append, tagsOf_append,
      tagsOf_append, tagsOf_chars, List.nil_append, List.append_assoc, htags, tokens_ofList,
      List.append_assoc]

end Reads

theorem plain_style : ∀ l ∈ style.map ("        " ++ ·), Plain l :=
  List.forall_mem_map.mpr fun l hl =>
    occurrences_append_eq_zero.mpr ⟨rfl, occurrences_style (.inl rfl) l hl⟩

theorem reads_head : Reads (head s)
    ["<head>", "<meta charset=\"UTF-8\">", "<title>", "</title>", "<style>", "</style>",
      "</head>"] := by
  rw [head]
  refine .of_eq (.append (.append
      (.cons ?_ <| .cons ?_ <| .element ?_ (plain_escape _) ?_ <| .cons ?_ .nil)
      (.plain plain_style))
    (.cons ?_ <| .cons ?_ .nil)) ?_
  all_goals rfl

def metricTags : List String :=
  ["<div class=\"metric\">", "<div class=\"metric-label\">", "</div>",
    "<div class=\"metric-value\">", "</div>", "</div>"]

theorem reads_headline {label value : String} (hl : Plain label) (hv : Plain value) :
    Reads (headline label value) metricTags := by
  rw [headline]
  refine .of_eq (.cons ?_ <| .element ?_ hl ?_ <| .element ?_ hv ?_ <| .cons ?_ .nil) ?_
  all_goals rfl

theorem reads_headlines :
    Reads (headlines r s) (metricTags ++ metricTags ++ metricTags) := by
  have hms : ∀ x, Plain (figure x ++ "ms") := fun x =>
    occurrences_append_eq_zero.mpr ⟨occurrences_figure (.inr (by decide)), rfl⟩
  refine .append (.append ?_ ?_) ?_
  · exact reads_headline (by decide) (occurrences_count _)
  · exact reads_headline (by decide) (hms _)
  · exact reads_headline (by decide) (hms _)

def openingTags : List String :=
  ["<!DOCTYPE html>", "<html>", "<head>", "<meta charset=\"UTF-8\">", "<title>", "</title>",
    "<style>", "</style>", "</head>", "<body>", "<div class=\"container\">", "<h1>", "</h1>",
    "<div>"] ++ metricTags ++ metricTags ++ metricTags ++ ["</div>", "<h2>", "</h2>", "<table>"]

theorem reads_opening : Reads (opening r s) openingTags := by
  rw [opening]
  refine .of_eq (.append (.append (.append (.append
      (.cons ?_ <| .cons ?_ .nil)
      reads_head)
    (.cons ?_ <| .cons ?_ <| .element ?_ (plain_escape _) ?_ <| .cons ?_ <| .cons ?_ .nil))
      reads_headlines)
    (.cons ?_ <| .cons ?_ <| .cons ?_ <| .cons ?_ .nil)) ?_
  all_goals rfl

def closingTags : List String := ["</table>", "</div>", "</body>", "</html>"]

theorem reads_closing : Reads closing closingTags := by
  refine .of_eq (.cons ?_ <| .cons ?_ <| .cons ?_ <| .cons ?_ .nil) ?_
  all_goals rfl

theorem reads_tableLine {ls ts : List String} (h : Reads ls ts) :
    Reads (tableLine ls) (["<tr>"] ++ ts ++ ["</tr>"]) := by
  refine .append (.append (.of_eq (.cons ?_ .nil) ?_) h) (.of_eq (.cons ?_ .nil) ?_)
  all_goals rfl

theorem reads_headers : Reads headers (List.replicate 5 ["<th>", "</th>"]).flatten := by
  refine .of_eq (.element ?_ ?_ ?_ <| .element ?_ ?_ ?_ <| .element ?_ ?_ ?_ <|
    .element ?_ ?_ ?_ <| .element ?_ ?_ ?_ .nil) ?_
  all_goals rfl

def tableHeadTags : List String :=
  ["<thead>", "<tr>"] ++ (List.replicate 5 ["<th>", "</th>"]).flatten ++ ["</tr>", "</thead>"]

theorem reads_tableHead : Reads tableHead tableHeadTags := by
  refine .of_eq (.append (.append (.cons ?_ .nil) (reads_tableLine reads_headers))
    (.cons ?_ .nil)) ?_
  all_goals rfl

structure PlainRow (row : Row) : Prop where
  requests : Plain row.requests
  mean : Plain row.mean
  p95 : Plain row.p95
  p99 : Plain row.p99

theorem plainRow_of_mem {row : Row} {gs : List (String × Group)} (h : row ∈ rows gs) :
    PlainRow row := by
  obtain ⟨e, _, he⟩ := List.mem_filterMap.mp h
  obtain ⟨stats, _, rfl⟩ := Option.map_eq_some_iff.mp he
  have hfigure (x : Float) : Plain (figure x) := occurrences_figure (.inr (by decide))
  exact ⟨occurrences_count _, hfigure _, hfigure _, hfigure _⟩

theorem reads_cells {row : Row} (h : PlainRow row) :
    Reads (cells row) (List.replicate 5 ["<td>", "</td>"]).flatten := by
  obtain ⟨hrequests, hmean, hp95, hp99⟩ := h
  refine .of_eq (.element ?_ (plain_escape _) ?_ <| .element ?_ hrequests ?_ <|
    .element ?_ hmean ?_ <| .element ?_ hp95 ?_ <| .element ?_ hp99 ?_ .nil) ?_
  all_goals rfl

def rowTags : List String := ["<tr>"] ++ (List.replicate 5 ["<td>", "</td>"]).flatten ++ ["</tr>"]

def pageTags (n : ℕ) : List String :=
  openingTags ++ tableHeadTags ++ ["<tbody>"] ++ (List.replicate n rowTags).flatten ++
    ["</tbody>"] ++ closingTags

theorem reads_lines : Reads (lines r s) (pageTags (rows (scenarios r.scenarios)).length) := by
  have hrows : ∀ row ∈ rows (scenarios r.scenarios), Reads (tableRow row) rowTags :=
    fun row h => reads_tableLine (reads_cells (plainRow_of_mem h))
  refine .append (.append (.append (.append (.append reads_opening reads_tableHead)
    (.of_eq (.cons ?_ .nil) ?_)) (.flatMap_of_forall hrows)) (.of_eq (.cons ?_ .nil) ?_))
    reads_closing
  all_goals rfl

theorem tokens_text : tokens (text r s) = (lines r s).flatMap lineTokens := by
  have hclosed : ∀ l ∈ (lines r s).map (· ++ "\n"), Closed l :=
    List.forall_mem_map.mpr fun l hl => (reads_lines.closed l hl).append (by decide)
  rw [text, tokens_join hclosed, List.flatMap_map]
  rfl

theorem tags_text : tags (text r s) = pageTags (rows (scenarios r.scenarios)).length := by
  rw [tags, tokens_text, reads_lines.tags_eq]

end LoadReport.Report.Html
