import DoxPages.Page.Table
import DoxPages.Proofs.Text.Columns
import DoxPages.Proofs.Text.Split
import Mathlib.Algebra.GroupWithZero.Nat

/-!
# Columns of page tables

A table has a line of headers, a line of dashes and a line for each row. Every bar between cells
stands behind a space, so no cell can take it away. A cell is escaped without regard to the
backslashes in it: each bar that one of them escaped before is a separator afterwards.
-/

namespace DoxPages

open Text

/-! ## Lines -/

/-- The separators of a row beyond those between its cells. -/
def strayBars (row : List String) : Nat := (row.map fun cell => escapedBars cell.toList).sum

theorem strayBars_eq_zero_iff {row : List String} :
    strayBars row = 0 ↔ ∀ cell ∈ row, escapedBars cell.toList = 0 := by
  rw [strayBars, List.sum_eq_zero_iff_forall_eq_nat, List.forall_mem_map]

theorem separators_joinWith {cells : List String} (h : cells ≠ []) :
    separators ((joinWith " | " cells).toList ++ " |".toList) =
      (cells.map fun cell => separators cell.toList).sum + cells.length := by
  induction cells with
  | nil => exact absurd rfl h
  | cons cell cells ih =>
    cases cells with
    | nil =>
      rw [joinWith_singleton]
      exact separators_append_space_bar cell.toList []
    | cons next cells =>
      have hline : (joinWith " | " (cell :: next :: cells)).toList ++ " |".toList =
          cell.toList ++ ' ' :: '|' ::
            (" ".toList ++ ((joinWith " | " (next :: cells)).toList ++ " |".toList)) := by
        rw [joinWith_cons_cons, List.append_assoc, List.append_assoc]
        rfl
      have hspace : separators " ".toList = 0 := rfl
      rw [hline, separators_append_space_bar, separators_append (by decide), hspace,
        ih (List.cons_ne_nil next cells)]
      simp only [List.map_cons, List.sum_cons, List.length_cons]
      omega

/-- A line has a separator before each cell and one at its end, and those inside the cells. -/
theorem separators_tableLine {cells : List String} (h : cells ≠ []) :
    separators (tableLine cells).toList =
      cells.length + 1 + (cells.map fun cell => separators cell.toList).sum := by
  have hline : (tableLine cells).toList =
      "| ".toList ++ ((joinWith " | " cells).toList ++ " |".toList) := by
    rw [tableLine, String.toList_append, String.toList_append, List.append_assoc]
  rw [hline, separators_append (by decide), separators_joinWith h]
  have hstart : separators "| ".toList = 1 := rfl
  omega

theorem lineFeed_not_mem_tableLine {cells : List String} (h : ∀ cell ∈ cells, '\n' ∉ cell.toList) :
    '\n' ∉ (tableLine cells).toList := by
  rw [tableLine, String.toList_append, String.toList_append, List.mem_append, List.mem_append]
  rintro ((hstart | hcells) | hend)
  · revert hstart
    decide
  · rcases mem_joinWith hcells with hbar | ⟨cell, hcell, hmem⟩
    · revert hbar
      decide
    · exact h cell hcell hmem
  · revert hend
    decide

/-! ## Tables -/

theorem separators_plainLine {cells : List String} (hne : cells ≠ [])
    (h : ∀ cell ∈ cells, '|' ∉ cell.toList) :
    separators (tableLine cells).toList = cells.length + 1 := by
  have hnone : (cells.map fun cell => separators cell.toList).sum = 0 := by
    rw [List.sum_eq_zero_iff_forall_eq_nat, List.forall_mem_map]
    exact fun cell hcell => barsBehind_of_not_mem (h cell hcell)
  rw [separators_tableLine hne, hnone]

theorem separators_rowLine {row : List String} (h : row ≠ []) :
    separators (tableLine (row.map (onChars tableCell))).toList =
      row.length + 1 + strayBars row := by
  have hcells : ((row.map (onChars tableCell)).map fun cell => separators cell.toList) =
      row.map fun cell => escapedBars cell.toList := by
    rw [List.map_map]
    refine List.map_congr_left fun cell _ => ?_
    rw [Function.comp_apply, toList_onChars]
    exact separators_escapeBreaks cell.toList
  rw [separators_tableLine (by simpa using h), hcells, List.length_map, strayBars]

/-- The lines of a table, each read off by its line feed. -/
theorem lines_markdownTable {headers : List String} {rows : List (List String)}
    (hheaders : ∀ header ∈ headers, '\n' ∉ header.toList) (hrows : rows ≠ []) :
    splitChar '\n' (markdownTable headers rows).toList =
      (tableLine headers).toList :: (tableLine (headers.map fun _ => "---")).toList ::
        rows.map fun row => (tableLine (row.map (onChars tableCell))).toList := by
  rw [markdownTable, if_neg hrows,
    splitChar_joinWith_of_not_mem (c := '\n') rfl (List.cons_ne_nil _ _), List.map_cons,
    List.map_cons, List.map_map]
  · rfl
  · intro line hline
    rcases List.mem_cons.1 hline with rfl | hline
    · exact lineFeed_not_mem_tableLine hheaders
    rcases List.mem_cons.1 hline with rfl | hline
    · refine lineFeed_not_mem_tableLine (List.forall_mem_map.2 fun _ _ => ?_)
      decide
    · obtain ⟨row, -, rfl⟩ := List.mem_map.1 hline
      refine lineFeed_not_mem_tableLine (List.forall_mem_map.2 fun cell _ => ?_)
      rw [toList_onChars]
      exact lineFeed_not_mem_escapeBreaks cell.toList

theorem getLast?_markdownTable {headers : List String} {rows : List (List String)}
    (hrows : rows ≠ []) : (markdownTable headers rows).toList.getLast? = some '|' := by
  have hline (cells : List String) : (tableLine cells).toList.getLast? = some '|' := by
    rw [tableLine, String.toList_append, show " |".toList = [' '] ++ ['|'] from rfl,
      ← List.append_assoc, List.getLast?_concat]
  obtain ⟨front, row, rfl⟩ := List.eq_nil_or_concat rows |>.resolve_left hrows
  rw [markdownTable, if_neg hrows, List.concat_eq_append, List.map_append, List.map_singleton,
    ← List.cons_append, ← List.cons_append, joinWith_concat (List.cons_ne_nil _ _),
    ← List.append_assoc, List.getLast?_append, hline, Option.some_or]

/-- A table has two lines more than rows. Its lines have the separators of their columns, and a
row one more for each bar in its cells that a backslash escaped before; so all lines agree
exactly if there is no such bar. -/
theorem markdownTable_columns {headers : List String} {rows : List (List String)}
    (hheaders : headers ≠ [])
    (hplain : ∀ header ∈ headers, '|' ∉ header.toList ∧ '\n' ∉ header.toList)
    (hrows : rows ≠ []) (hlength : ∀ row ∈ rows, row.length = headers.length) :
    (splitChar '\n' (markdownTable headers rows).toList).length = rows.length + 2 ∧
      (splitChar '\n' (markdownTable headers rows).toList).map separators =
        (headers.length + 1) :: (headers.length + 1) ::
          rows.map (fun row => headers.length + 1 + strayBars row) ∧
      ((∀ line ∈ splitChar '\n' (markdownTable headers rows).toList,
          separators line = headers.length + 1) ↔
        ∀ row ∈ rows, ∀ cell ∈ row, escapedBars cell.toList = 0) := by
  have hlines := lines_markdownTable (fun header hmem => (hplain header hmem).2) hrows
  have hhead := separators_plainLine hheaders fun header hmem => (hplain header hmem).1
  have hdashes : separators (tableLine (headers.map fun _ => "---")).toList =
      headers.length + 1 := by
    rw [separators_plainLine (by simpa using hheaders), List.length_map]
    exact List.forall_mem_map.2 fun _ _ => by decide
  have hrow (row : List String) (hmem : row ∈ rows) :
      separators (tableLine (row.map (onChars tableCell))).toList =
        headers.length + 1 + strayBars row := by
    have hne : row ≠ [] := by
      rintro rfl
      exact hheaders (List.length_eq_zero_iff.1 (hlength [] hmem).symm)
    rw [separators_rowLine hne, hlength row hmem]
  rw [hlines]
  refine ⟨?_, ?_, ?_⟩
  · rw [List.length_cons, List.length_cons, List.length_map]
  · rw [List.map_cons, List.map_cons, hhead, hdashes, List.map_map]
    congr 2
    exact List.map_congr_left hrow
  · rw [List.forall_mem_cons, List.forall_mem_cons, List.forall_mem_map]
    simp only [hhead, hdashes, true_and]
    refine forall₂_congr fun row hmem => ?_
    rw [hrow row hmem, Nat.add_eq_left, strayBars_eq_zero_iff]

/-- Bars of an operator, two lines in a cell, a backslash at the end of a cell, and a bar behind
two backslashes. -/
def operatorRows : List (List String) :=
  [["`operator||`", "one\ntwo"], ["C:\\", "a \\\\| b"]]

theorem markdownTable_columns_operators :
    (∀ header ∈ ["Name", "Description"], '|' ∉ header.toList ∧ '\n' ∉ header.toList) ∧
      operatorRows ≠ [] ∧ (∀ row ∈ operatorRows, row.length = 2) ∧
      (splitChar '\n' (markdownTable ["Name", "Description"] operatorRows).toList).length = 4 ∧
      ∀ line ∈ splitChar '\n' (markdownTable ["Name", "Description"] operatorRows).toList,
        separators line = 3 := by
  have hplain : ∀ header ∈ ["Name", "Description"],
      '|' ∉ header.toList ∧ '\n' ∉ header.toList := by decide
  have hrows : operatorRows ≠ [] := by decide
  have hlength : ∀ row ∈ operatorRows, row.length = 2 := by decide
  have hsafe : ∀ row ∈ operatorRows, ∀ cell ∈ row, escapedBars cell.toList = 0 := by decide
  obtain ⟨hcount, -, hcolumns⟩ := markdownTable_columns (List.cons_ne_nil _ _) hplain hrows hlength
  exact ⟨hplain, hrows, hlength, hcount, hcolumns.2 hsafe⟩

/-- The escape of a bar that is escaped already makes it a separator. -/
theorem not_markdownTable_columns_escapedBar :
    ¬ ∀ (headers : List String) (rows : List (List String)), headers ≠ [] →
      (∀ header ∈ headers, '|' ∉ header.toList ∧ '\n' ∉ header.toList) →
      rows ≠ [] → (∀ row ∈ rows, row.length = headers.length) →
      (splitChar '\n' (markdownTable headers rows).toList).length = rows.length + 2 ∧
        ∀ line ∈ splitChar '\n' (markdownTable headers rows).toList,
          separators line = headers.length + 1 := by
  intro h
  obtain ⟨-, hcolumns⟩ := h ["Name"] [["a\\|b"]] (by decide) (by decide) (by decide) (by decide)
  have hrow : "| a\\\\|b |".toList ∈
      splitChar '\n' (markdownTable ["Name"] [["a\\|b"]]).toList := by
    decide
  have hcount := hcolumns _ hrow
  revert hcount
  decide

end DoxPages
