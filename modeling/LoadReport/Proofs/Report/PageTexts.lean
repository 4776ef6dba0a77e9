import LoadReport.Proofs.Report.Page
import LoadReport.Proofs.Sample.Order

/-! # The texts of the page

The title, the heading and the names of the rows are read back from the page. The title and the
heading are the only elements of their kinds; the rows are read one after the other.
-/

namespace LoadReport.Report.Html

open Markup

variable {r : Run} {s : Settings} {a b m : String} {cs ds : List Char} {ls ts : List String}

theorem count_pageTags (n : ℕ) (ha : a ∉ rowTags) :
    (pageTags n).count a = (pageTags 0).count a := by
  have hrows : ∀ k, (List.replicate k rowTags).flatten.count a = 0 := by
    intro k
    rw [List.count_eq_zero, List.mem_flatten]
    rintro ⟨l, hl, hal⟩
    exact ha (List.eq_of_mem_replicate hl ▸ hal)
  simp only [pageTags, List.count_append, hrows]

/-- A plain text between two tags of the page, the first of which is found nowhere else. -/
theorem contents_text (hmem : String.ofList cs ++ m ++ String.ofList ds ∈ lines r s)
    (hm : Plain m) (hab : a ≠ b) (ha : a ∉ rowTags) (hcount : (pageTags 0).count a = 1)
    (hstate : stateFrom none cs = none) (hpre : [.tag a] <:+ tokensFrom none cs)
    (hpost : [.tag b] <+: tokensFrom none (ds ++ ['\n'])) :
    contents a b (tokens (text r s)) = [m.toList.map .char] := by
  refine contents_eq_singleton hab ?_ ?_
  · rw [tokens_text, reads_lines.tags_eq, count_pageTags _ ha, hcount]
  · obtain ⟨ws, hws⟩ := hpre
    obtain ⟨vs, hvs⟩ := hpost
    obtain ⟨before, after, hlines⟩ := List.append_of_mem hmem
    refine ⟨before.flatMap lineTokens ++ ws, vs ++ after.flatMap lineTokens, ?_⟩
    rw [tokens_text, hlines, List.flatMap_append, List.flatMap_cons,
      lineTokens_element (closed_ofList hstate) hm, tokens_ofList, ← hws, lineTokens_ofList, ← hvs]
    simp

theorem textOf?_escape (s : String) : textOf? ((escape s).toList.map .char) = some s := by
  rw [textOf?_chars, decodeEntities_escape, String.ofList_toList]

theorem title_text :
    contents "<title>" "</title>" (tokens (text r s)) = [(escape s.title).toList.map .char] := by
  have hmem : "    <title>" ++ escape s.title ++ "</title>" ∈ lines r s := by
    simp only [lines, opening, head, List.mem_append, List.mem_cons, true_or, or_true]
  exact contents_text hmem (plain_escape _) (by decide) (by decide) (by decide) rfl (by decide)
    (by decide)

theorem heading_text :
    contents "<h1>" "</h1>" (tokens (text r s)) = [(escape s.title).toList.map .char] := by
  have hmem : "        <h1>" ++ escape s.title ++ "</h1>" ∈ lines r s := by
    simp only [lines, opening, List.mem_append, List.mem_cons, true_or, or_true]
  exact contents_text hmem (plain_escape _) (by decide) (by decide) (by decide) rfl (by decide)
    (by decide)

/-- What stands between the tags of a table line. -/
def lineContent (ls : List String) : List Token :=
  .char '\n' :: (ls.flatMap lineTokens ++ (List.replicate 16 ' ').map .char)

theorem tagsOf_lineContent (ls : List String) :
    tagsOf (lineContent ls) = tagsOf (ls.flatMap lineTokens) := by
  rw [lineContent, ← List.singleton_append, tagsOf_append, tagsOf_append, tagsOf_chars,
    List.append_nil]
  rfl

theorem contents_tableLine (h : Reads ls ts) (ho : "<tr>" ∉ ts) (hc : "</tr>" ∉ ts)
    (us : List Token) :
    contents "<tr>" "</tr>" ((tableLine ls).flatMap lineTokens ++ us) =
      lineContent ls :: contents "<tr>" "</tr>" us := by
  have hopen : lineTokens "                <tr>" =
      (List.replicate 16 ' ').map .char ++ [.tag "<tr>", .char '\n'] := by
    rw [lineTokens_ofList]
    rfl
  have hclose : lineTokens "                </tr>" =
      (List.replicate 16 ' ').map .char ++ [.tag "</tr>", .char '\n'] := by
    rw [lineTokens_ofList]
    rfl
  have hsplit : (tableLine ls).flatMap lineTokens ++ us = (List.replicate 16 ' ').map .char ++
      .tag "<tr>" :: (lineContent ls ++ .tag "</tr>" :: ([.char '\n'] ++ us)) := by
    simp [tableLine, lineContent, hopen, hclose]
  have htags : tagsOf (lineContent ls) = ts := (tagsOf_lineContent ls).trans h.tags_eq
  rw [hsplit, contents_chars_append, contents_element (by decide) (htags ▸ ho) (htags ▸ hc),
    contents_append (by decide)]

theorem contents_rows {rs : List Row} (h : ∀ row ∈ rs, PlainRow row) (us : List Token) :
    contents "<tr>" "</tr>" ((rs.flatMap tableRow).flatMap lineTokens ++ us) =
      rs.map (fun row => lineContent (cells row)) ++ contents "<tr>" "</tr>" us := by
  induction rs with
  | nil => rfl
  | cons row rs ih =>
    obtain ⟨hrow, hrs⟩ := List.forall_mem_cons.mp h
    rw [List.flatMap_cons, List.flatMap_append, List.append_assoc, tableRow,
      contents_tableLine (reads_cells hrow) (by decide) (by decide), ih hrs]
    rfl

/-- The text of the first cell of a table line; none if it has no cell. -/
def firstCell? (ts : List Token) : Option String :=
  (contents "<td>" "</td>" ts).head?.bind textOf?

theorem firstCell?_headers : firstCell? (lineContent headers) = none := by
  have hnone : "<td>" ∉ tagsOf (lineContent headers) := by
    rw [tagsOf_lineContent, reads_headers.tags_eq]
    decide
  rw [firstCell?, contents_eq_nil hnone]
  rfl

theorem lineTokens_cell (hm : Plain m) :
    lineTokens (cell m) = (List.replicate 20 ' ').map .char ++
      .tag "<td>" :: (m.toList.map .char ++ [.tag "</td>", .char '\n']) := by
  have hclosed : Closed "                    <td>" := closed_ofList (by decide)
  have hpre : tokens "                    <td>" =
      (List.replicate 20 ' ').map .char ++ [.tag "<td>"] := by
    rw [tokens_ofList]
    rfl
  have hpost : lineTokens "</td>" = [.tag "</td>", .char '\n'] := by
    rw [lineTokens_ofList]
    rfl
  have hcell : lineTokens (cell m) =
      tokens "                    <td>" ++ (m.toList.map .char ++ lineTokens "</td>") :=
    lineTokens_element hclosed hm
  rw [hcell, hpre, hpost, List.append_assoc, List.singleton_append]

theorem firstCell?_cells (row : Row) : firstCell? (lineContent (cells row)) = some row.key := by
  rw [firstCell?, lineContent, cells, List.flatMap_cons, lineTokens_cell (plain_escape _),
    contents_cons_char]
  simp only [List.append_assoc, List.cons_append, List.nil_append]
  rw [contents_chars_append, contents_element (by decide) (by simp) (by simp), List.head?_cons,
    Option.bind_some, textOf?_escape]

/-- The names of the scenarios that have durations, in the order of the report. -/
def shown (t : GroupTable) : List String :=
  ((scenarios t).filter fun e => !e.2.durations.isEmpty).map (·.1)

theorem map_key_rows (t : GroupTable) : (rows (scenarios t)).map (·.key) = shown t := by
  rw [rows, List.map_filterMap, shown]
  induction scenarios t with
  | nil => rfl
  | cons e gs ih =>
    obtain ⟨k, g⟩ := e
    have hsome := @Statistics.isSome_of? g.durations.toList
    cases h : Statistics.of? g.durations.toList with
    | none =>
      have hg : g.durations.isEmpty := by simpa [h] using hsome
      simp only [List.filterMap_cons, h, Option.map_none]
      rw [ih, List.filter_cons_of_neg (by simp [hg])]
    | some stats =>
      have hg : g.durations.isEmpty = false := by simpa [h] using hsome
      simp only [List.filterMap_cons, h, Option.map_some]
      rw [ih, List.filter_cons_of_pos (by simp [hg]), List.map_cons]
      rfl

/-- What a reader of the page finds. -/
structure Shows (page title : String) (keys : List String) : Prop where
  tags_eq : tags page = pageTags keys.length
  title_eq : (contents "<title>" "</title>" (tokens page)).map textOf? = [some title]
  heading_eq : (contents "<h1>" "</h1>" (tokens page)).map textOf? = [some title]
  /-- The first line of the table has the headers. -/
  keys_eq : (contents "<tr>" "</tr>" (tokens page)).map firstCell? = none :: keys.map some

theorem keys_text :
    (contents "<tr>" "</tr>" (tokens (text r s))).map firstCell? =
      none :: (shown r.scenarios).map some := by
  have hopening : "<tr>" ∉ tagsOf ((opening r s).flatMap lineTokens) := by
    rw [reads_opening.tags_eq]
    decide
  have hbefore : "<tr>" ∉ tagsOf (["            <thead>"].flatMap lineTokens) := by
    rw [Reads.tags_eq (.cons rfl .nil)]
    decide
  have hbetween :
      "<tr>" ∉ tagsOf (["            </thead>", "            <tbody>"].flatMap lineTokens) := by
    rw [Reads.tags_eq (.cons rfl <| .cons rfl .nil)]
    decide
  have hafter : "<tr>" ∉ tagsOf ((["            </tbody>"] ++ closing).flatMap lineTokens) := by
    rw [Reads.tags_eq (.append (.cons rfl .nil) reads_closing)]
    decide
  have hsplit : tokens (text r s) =
      (opening r s).flatMap lineTokens ++ (["            <thead>"].flatMap lineTokens ++
        ((tableLine headers).flatMap lineTokens ++
          (["            </thead>", "            <tbody>"].flatMap lineTokens ++
            (((rows (scenarios r.scenarios)).flatMap tableRow).flatMap lineTokens ++
              (["            </tbody>"] ++ closing).flatMap lineTokens)))) := by
    rw [tokens_text, lines, tableHead]
    simp only [List.flatMap_append, List.append_assoc]
    rfl
  have hkeys : ∀ rs : List Row, rs.map (fun row => firstCell? (lineContent (cells row))) =
      (rs.map (·.key)).map some := by
    intro rs
    simp only [firstCell?_cells, List.map_map, Function.comp_def]
  rw [hsplit, contents_append hopening, contents_append hbefore,
    contents_tableLine reads_headers (by decide) (by decide), contents_append hbetween,
    contents_rows (fun _ => plainRow_of_mem), contents_eq_nil hafter, List.append_nil,
    List.map_cons, firstCell?_headers, List.map_map, Function.comp_def, hkeys, map_key_rows]

/-- Titles and names stand on the page as they are and add no tag. -/
theorem shows_text (r : Run) (s : Settings) : Shows (text r s) s.title (shown r.scenarios) where
  tags_eq := by rw [tags_text, ← map_key_rows, List.length_map]
  title_eq := by rw [title_text, List.map_singleton, textOf?_escape]
  heading_eq := by rw [heading_text, List.map_singleton, textOf?_escape]
  keys_eq := keys_text

end LoadReport.Report.Html
