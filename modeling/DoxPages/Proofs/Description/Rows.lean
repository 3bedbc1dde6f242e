import DoxPages.Proofs.Description.Behind
import DoxPages.Proofs.Description.Keeping
import DoxPages.Proofs.Text.Columns
import DoxPages.Proofs.Text.Split
import Mathlib.Data.List.Induction

/-!
# Rows of a table

A row is one line: each cell is escaped and closed by a bar, and the bar behind the last cell is
taken away. `Node.render_row` counts the separators of that line. There is one between two cells
unless the first of them ends in backslashes that escape its bar; bars that were escaped in a
cell count as well, and so does the last bar if it is kept behind backslashes.
-/

namespace DoxPages

open Text Output

/-! ## Separators of a row -/

/-- The bar behind the last cell is not taken away, and its backslashes do not escape it. -/
def keepsBar (cell : List Char) : Bool := cell.getLast? == some '\\' && !escapesNext cell

def cellBars (cell : List Char) : Nat := escapedBars cell + if escapesNext cell then 0 else 1

def rowBars : List (List Char) → Nat
  | [] => 0
  | [cell] => escapedBars cell + if keepsBar cell then 1 else 0
  | cell :: next :: cells => cellBars cell + rowBars (next :: cells)

def frontBars : List (List Char) → Nat
  | [] => 0
  | cell :: cells => cellBars cell + frontBars cells

theorem rowBars_concat (cells : List (List Char)) (last : List Char) :
    rowBars (cells ++ [last]) =
      frontBars cells + (escapedBars last + if keepsBar last then 1 else 0) := by
  induction cells with
  | nil => exact (Nat.zero_add _).symm
  | cons cell cells ih =>
    obtain ⟨next, rest, hrest⟩ : ∃ next rest, cells ++ [last] = next :: rest :=
      List.exists_cons_of_ne_nil (by simp)
    rw [List.cons_append, hrest, rowBars, ← hrest, ih, frontBars, Nat.add_assoc]

/-- The backslashes of a text concern no bar, neither one in it nor one behind it. -/
def BarSafe (cell : List Char) : Prop := escapedBars cell = 0 ∧ cell.getLast? ≠ some '\\'

instance (cell : List Char) : Decidable (BarSafe cell) := inferInstanceAs (Decidable (_ ∧ _))

theorem BarSafe.slashesBehind {cell : List Char} (h : BarSafe cell) : slashesBehind 0 cell = 0 :=
  Nat.eq_zero_of_not_pos fun hpos => h.2 (getLast?_eq_slash_iff.2 hpos)

theorem BarSafe.cellBars {cell : List Char} (h : BarSafe cell) : cellBars cell = 1 := by
  simp [DoxPages.cellBars, h.1, escapesNext, h.slashesBehind]

theorem frontBars_of_barSafe {cells : List (List Char)} (h : ∀ cell ∈ cells, BarSafe cell) :
    frontBars cells = cells.length := by
  induction cells with
  | nil => rfl
  | cons cell cells ih =>
    rw [List.forall_mem_cons] at h
    rw [frontBars, h.1.cellBars, ih h.2, List.length_cons, Nat.add_comm]

/-- Safe cells are told apart as they are meant to be. -/
theorem rowBars_of_barSafe {cells : List (List Char)} (h : ∀ cell ∈ cells, BarSafe cell) :
    rowBars cells = cells.length - 1 := by
  rcases List.eq_nil_or_concat cells with rfl | ⟨front, last, rfl⟩
  · rfl
  · rw [List.concat_eq_append, List.forall_mem_append, List.forall_mem_singleton] at h
    have hkeeps : keepsBar last = false := by simp [keepsBar, h.2.2]
    rw [List.concat_eq_append, rowBars_concat, frontBars_of_barSafe h.1, hkeeps, h.2.1,
      List.length_append]
    rfl

/-! ## Escaped cells -/

section
variable (cs : List Char)

theorem trim_lines_strip : trim (· == '\n') (strip cs) = strip cs := by
  refine trim_strip (fun c hc => ?_) cs
  obtain rfl : c = '\n' := eq_of_beq hc
  decide

theorem separators_escapeCell : separators (escapeCell (strip cs)) = escapedBars (strip cs) := by
  rw [escapeCell, trim_lines_strip, separators_escapeBreaks]

theorem slashesBehind_escapeCell :
    slashesBehind 0 (escapeCell (strip cs)) = slashesBehind 0 (strip cs) := by
  rw [escapeCell, trim_lines_strip, slashesBehind_replaceChar (by decide) (fun _ => rfl),
    slashesBehind_escape]

theorem escapesNext_escapeCell : escapesNext (escapeCell (strip cs)) = escapesNext (strip cs) := by
  rw [escapesNext, slashesBehind_escapeCell, escapesNext]

theorem lineFeed_not_mem_escapeCell : '\n' ∉ escapeCell cs := lineFeed_not_mem_escapeBreaks _

end

/-! ## What is written for a row -/

def Node.cellText (cx : Context) (n : Node) : List Char :=
  strip (renderAll cx.apart 0 n.children {}).text.toList

/-- What a cell, or a blank text beside it, adds to its row. -/
def rowPiece (cx : Context) : Node → List Char
  | .text s => (Node.textFragment cx.apart s).toList
  | .element tag attrs children =>
    escapeCell ((Node.element tag attrs children).cellText cx) ++ ['|']

theorem text_render_cell (attrs : List (String × String)) (children : List Node) (cx : Context)
    (index : Nat) (out : Output) :
    ((Node.element "entry" attrs children).render cx.apart index out).text.toList =
      out.text.toList ++ rowPiece cx (.element "entry" attrs children) := by
  have htext := Rule.apart_renderAll children cx.apart out
  rw [Node.render, Rule.ofTag?_entry]
  simp only [Rule.render, text_write, htext, String.toList_append, toList_onChars,
    List.append_assoc]
  rfl

theorem text_renderAll_cells {ns : List Node} (h : ∀ n ∈ ns, isRowContent n) (cx : Context)
    (index : Nat) (out : Output) :
    (renderAll cx.apart index ns out).text.toList =
      out.text.toList ++ ns.flatMap (rowPiece cx) := by
  induction ns generalizing index out with
  | nil =>
    rw [renderAll]
    exact (List.append_nil _).symm
  | cons n ns ih =>
    rw [List.forall_mem_cons] at h
    rw [List.flatMap_cons]
    cases n with
    | text s =>
      rw [renderAll]
      split
      · rw [ih h.2, Node.render, text_write, String.toList_append, List.append_assoc]
        rfl
      · rename_i hvisible
        rw [ih h.2, rowPiece, Node.textFragment_of_invisible (by simpa using hvisible)]
        rfl
    | element tag attrs children =>
      obtain rfl : tag = "entry" := h.1
      rw [renderAll_cons_of_visible rfl, ih h.2, text_render_cell, List.append_assoc]

theorem allBlank_rowPiece {n : Node} (h : isRowContent n) (hn : n.isCell = false) (cx : Context) :
    allBlank (rowPiece cx n) = true := by
  cases n with
  | text s =>
    rw [rowPiece, Node.textFragment, if_pos (show allBlank s.toList = true from h)]
    split <;> decide
  | element tag attrs children =>
    rw [Node.isCell, show tag = "entry" from h] at hn
    cases hn

theorem rowPiece_of_isCell {n : Node} (hn : n.isCell = true) (cx : Context) :
    rowPiece cx n = escapeCell (n.cellText cx) ++ ['|'] := by
  cases n with
  | text s => cases hn
  | element tag attrs children => rfl

theorem separators_rowPieces {ns : List Node} (h : ∀ n ∈ ns, isRowContent n) (cx : Context) :
    separators (ns.flatMap (rowPiece cx)) =
        frontBars ((ns.filter Node.isCell).map (Node.cellText cx)) ∧
      slashesBehind 0 (ns.flatMap (rowPiece cx)) = 0 := by
  induction ns with
  | nil => exact ⟨rfl, rfl⟩
  | cons n ns ih =>
    rw [List.forall_mem_cons] at h
    obtain ⟨hbars, hslashes⟩ := ih h.2
    have hpiece : separators (rowPiece cx n) =
          (if n.isCell then cellBars (n.cellText cx) else 0) ∧
        slashesBehind 0 (rowPiece cx n) = 0 := by
      cases hn : n.isCell with
      | false =>
        have hblank := allBlank_rowPiece h.1 hn cx
        exact ⟨barsBehind_allBlank hblank, slashesBehind_allBlank hblank⟩
      | true =>
        rw [rowPiece_of_isCell hn, slashesBehind_concat_of_ne (by decide), separators_concat_bar,
          Node.cellText, separators_escapeCell, escapesNext_escapeCell]
        exact ⟨rfl, rfl⟩
    rw [List.flatMap_cons, separators_append hpiece.2, slashesBehind_append, hpiece.2, hslashes,
      hpiece.1, hbars, List.filter_cons]
    refine ⟨?_, rfl⟩
    split
    · rw [List.map_cons, frontBars]
    · exact Nat.zero_add _

/-! ## The line of a row -/

theorem trimRow_concat (cs : List Char) :
    trimRow (cs ++ ['|']) = if cs.getLast? = some '\\' then cs ++ ['|'] else stripRight cs := by
  have hrow : stripRight (cs ++ ['|']) = cs ++ ['|'] := stripRight_eq_self fun c hc => by
    rw [List.getLast?_concat, Option.some.injEq] at hc
    rw [← hc]
    decide
  rw [trimRow, hrow]
  simp only [List.reverse_concat]
  split
  · rename_i rest hslash
    have hlast : cs.getLast? = some '\\' := by
      rw [List.getLast?_eq_head?_reverse, (List.cons.inj hslash).2]
      rfl
    rw [if_pos hlast]
  · rename_i rest hfree hrest
    obtain rfl : cs.reverse = rest := (List.cons.inj hrest).2
    have hlast : cs.getLast? ≠ some '\\' := by
      rw [List.getLast?_eq_head?_reverse]
      intro hhead
      obtain ⟨tail, htail⟩ := List.head?_eq_some_iff.1 hhead
      exact hfree tail (by rw [htail])
    rw [if_neg hlast, List.reverse_reverse]
  · rename_i hnone
    exact absurd rfl (hnone _)

theorem exists_last_cell {ns : List Node} (h : ns.filter Node.isCell ≠ []) :
    ∃ before last behind, ns = before ++ last :: behind ∧ last.isCell = true ∧
      ∀ n ∈ behind, n.isCell = false := by
  induction ns using List.reverseRecOn with
  | nil => exact absurd rfl h
  | append_singleton ns n ih =>
    cases hn : n.isCell with
    | true => exact ⟨ns, n, [], rfl, hn, List.forall_mem_nil _⟩
    | false =>
      rw [List.filter_append, List.filter_cons, if_neg (by rw [hn]; exact Bool.false_ne_true)] at h
      obtain ⟨before, last, behind, rfl, hlast, hbehind⟩ := ih (by simpa using h)
      refine ⟨before, last, behind ++ [n], by simp, hlast, ?_⟩
      rw [List.forall_mem_append, List.forall_mem_singleton]
      exact ⟨hbehind, hn⟩

/-- The line of a row with a last cell: what stands before its closing bar, and the bar if a
backslash keeps it. -/
theorem trimRow_rowPieces (before : List Node) {behind : List Node} {last : Node} (cx : Context)
    (hlast : last.isCell = true) (hbehind : ∀ n ∈ behind, isRowContent n ∧ n.isCell = false) :
    let row := (before.flatMap (rowPiece cx) ++ escapeCell (last.cellText cx)).dropWhile isBlank
    trimRow (strip ((before ++ last :: behind).flatMap (rowPiece cx))) =
      if row.getLast? = some '\\' then row ++ ['|'] else stripRight row := by
  have hblank : allBlank (behind.flatMap (rowPiece cx)) = true := by
    rw [allBlank, List.all_flatMap, List.all_eq_true]
    exact fun n hn => allBlank_rowPiece (hbehind n hn).1 (hbehind n hn).2 cx
  have hbar : stripRight ('|' :: behind.flatMap (rowPiece cx)) = ['|'] := by
    have hnil := stripRight_of_allBlank hblank
    rw [stripRight] at hnil ⊢
    rw [trimRight_cons (by decide), hnil]
  rw [List.flatMap_append, List.flatMap_cons, rowPiece_of_isCell hlast, List.append_assoc,
    List.singleton_append, ← List.append_assoc, strip_append_cons (by decide), hbar,
    trimRow_concat]

section
variable {before behind : List Node} {last : Node} (cx : Context)
  (hbefore : ∀ n ∈ before, isRowContent n) (hlast : last.isCell = true)
  (hbehind : ∀ n ∈ behind, isRowContent n ∧ n.isCell = false)
include hbefore hlast hbehind

theorem separators_line :
    separators (trimRow (strip ((before ++ last :: behind).flatMap (rowPiece cx)))) =
      rowBars ((before.filter Node.isCell).map (Node.cellText cx) ++ [last.cellText cx]) := by
  obtain ⟨hbars, hslashes⟩ := separators_rowPieces hbefore cx
  have hline := trimRow_rowPieces before cx hlast hbehind
  simp only at hline
  rw [hline, rowBars_concat, ← hbars]
  generalize hrow : (before.flatMap (rowPiece cx) ++ escapeCell (last.cellText cx)).dropWhile
    isBlank = row
  have hrowBars : separators row =
      separators (before.flatMap (rowPiece cx)) + escapedBars (last.cellText cx) := by
    rw [← hrow, separators, barsBehind_dropWhile_isBlank, ← separators, separators_append hslashes,
      Node.cellText, separators_escapeCell]
  have hrowSlashes : slashesBehind 0 row = slashesBehind 0 (last.cellText cx) := by
    rw [← hrow, slashesBehind_dropWhile_isBlank, slashesBehind_append, hslashes, Node.cellText,
      slashesBehind_escapeCell]
  have hnext : escapesNext row = escapesNext (last.cellText cx) := by
    rw [escapesNext, hrowSlashes, escapesNext]
  have hends : row.getLast? = some '\\' ↔ (last.cellText cx).getLast? = some '\\' := by
    rw [getLast?_eq_slash_iff, getLast?_eq_slash_iff, hrowSlashes]
  split
  · rename_i hslash
    rw [separators_concat_bar, hrowBars, hnext, keepsBar, hends.1 hslash, Nat.add_assoc]
    cases escapesNext (last.cellText cx) <;> rfl
  · rename_i hfree
    have hkeeps : keepsBar (last.cellText cx) = false := by
      have hlast : (last.cellText cx).getLast? ≠ some '\\' := fun h => hfree (hends.2 h)
      simp [keepsBar, hlast]
    rw [separators, barsBehind_stripRight, ← separators, hrowBars, hkeeps]
    rfl

end

theorem trimRow_sublist (cs : List Char) : (trimRow cs).Sublist cs := by
  have hrow : (stripRight cs).Sublist cs := (trimRight_isPrefix isBlank cs).sublist
  unfold trimRow
  simp only
  split
  · exact hrow
  · rename_i rest _ hbar
    have hrest : rest.reverse.Sublist (stripRight cs) := by
      rw [← List.reverse_sublist, List.reverse_reverse, hbar]
      exact List.sublist_cons_self ..
    exact ((trimRight_isPrefix isBlank rest.reverse).sublist.trans hrest).trans hrow
  · exact hrow

theorem lineFeed_not_mem_line {ns : List Node} (h : ∀ n ∈ ns, isRowContent n) (cx : Context) :
    '\n' ∉ trimRow (strip (ns.flatMap (rowPiece cx))) := by
  intro hmem
  have hmem := (trim_sublist isBlank _).subset ((trimRow_sublist _).subset hmem)
  obtain ⟨n, hn, hmem⟩ := List.mem_flatMap.1 hmem
  have hcontent := h n hn
  cases n with
  | text s =>
    rw [rowPiece, Node.textFragment, if_pos (show allBlank s.toList = true from hcontent)] at hmem
    revert hmem
    split <;> decide
  | element tag attrs children =>
    rw [rowPiece, List.mem_append] at hmem
    exact hmem.elim (lineFeed_not_mem_escapeCell _) (by decide)

/-! ## The line of dashes -/

def dashLine (columns : Nat) : String :=
  joinWith " | " (List.replicate columns "---------")

theorem dashLine_spec (n : Nat) :
    separators (dashLine (n + 1)).toList = n ∧ '\n' ∉ (dashLine (n + 1)).toList := by
  induction n with
  | zero => decide
  | succ n ih =>
    have hline : (dashLine (n + 1 + 1)).toList =
        "--------- | ".toList ++ (dashLine (n + 1)).toList :=
      joinWith_cons_cons " | " "---------" "---------" (List.replicate n "---------")
    rw [hline, separators_append (by decide), ih.1, List.mem_append, not_or]
    exact ⟨Nat.add_comm 1 n, by decide, ih.2⟩

theorem rowDashes_cons (first : Node) (others : List Node) :
    Rule.rowDashes (first :: others) =
      if first.attr "thead" = "yes" then "\n" ++ dashLine (others.length + 1) else "" := by
  rw [Rule.rowDashes, List.map_const', List.length_cons, dashLine]

theorem text_render_row {children : List Node} (h : ∀ n ∈ children, isRowContent n)
    (attrs : List (String × String)) (cx : Context) (index : Nat) (out : Output) :
    ((Node.element "row" attrs children).render cx index out).text =
      out.text ++ "\n" ++
        String.ofList (trimRow (strip (children.flatMap (rowPiece cx)))) ++
        Rule.rowDashes (children.filter Node.isCell) := by
  have hrule : Rule.ofTag? "row" = some .row := by decide
  have htext := Rule.apart_renderAll children cx out
  have hcells := text_renderAll_cells h cx 0 {}
  rw [Node.render, hrule]
  simp only [Rule.render, text_write, htext, onChars, hcells, Node.elements_entry,
    String.toList_ofList]
  rfl

/-- A row of cells is one line, with the separators that `rowBars` counts, and dashes for all its
columns below if its first cell is a head. The count is the number of gaps between the cells if
all cells are safe. -/
theorem Node.render_row {children : List Node} (hcontent : ∀ n ∈ children, isRowContent n)
    {first : Node} {others : List Node} (hcells : children.filter Node.isCell = first :: others)
    (attrs : List (String × String)) (cx : Context) (index : Nat) (out : Output) :
    ∃ line,
      ((Node.element "row" attrs children).render cx index out).text =
        out.text ++ "\n" ++ line ++
          (if first.attr "thead" = "yes" then "\n" ++ dashLine (others.length + 1) else "") ∧
      '\n' ∉ line.toList ∧
      separators line.toList = rowBars ((first :: others).map (cellText cx)) ∧
      ((∀ cell ∈ (first :: others).map (cellText cx), BarSafe cell) →
        separators line.toList = others.length) ∧
      '\n' ∉ (dashLine (others.length + 1)).toList ∧
      separators (dashLine (others.length + 1)).toList = others.length := by
  have hne : children.filter Node.isCell ≠ [] := by
    rw [hcells]
    exact List.cons_ne_nil first others
  obtain ⟨before, last, behind, rfl, hlast, hbehind⟩ := exists_last_cell hne
  have hcontent' := hcontent
  rw [List.forall_mem_append, List.forall_mem_cons] at hcontent'
  have hcount := separators_line cx hcontent'.1 hlast
    fun n hn => ⟨hcontent'.2.2 n hn, hbehind n hn⟩
  have hsplit : before.filter Node.isCell ++ [last] = first :: others := by
    have hnone : behind.filter Node.isCell = [] := by
      rw [List.filter_eq_nil_iff]
      exact fun n hn => by rw [hbehind n hn]; exact Bool.false_ne_true
    rw [← hcells, List.filter_append, List.filter_cons_of_pos hlast, hnone]
  rw [← List.map_singleton (f := cellText cx), ← List.map_append, hsplit] at hcount
  refine ⟨String.ofList (trimRow (strip ((before ++ last :: behind).flatMap (rowPiece cx)))),
    ?_, ?_, ?_, ?_, (dashLine_spec _).2, (dashLine_spec _).1⟩
  · rw [text_render_row hcontent, hcells, rowDashes_cons]
  · rw [String.toList_ofList]
    exact lineFeed_not_mem_line hcontent cx
  · rw [String.toList_ofList, hcount]
  · intro hsafe
    rw [String.toList_ofList, hcount, rowBars_of_barSafe hsafe, List.length_map, List.length_cons,
      Nat.add_sub_cancel]

def barHead : Node := .element "entry" [("thead", "yes")] [.text "a|b"]

def pathCell : Node :=
  .element "entry" [] [.element "bold" [] [.text "C:\\dir"], .text "\nand\nmore"]

theorem Node.render_row_barHead :
    let row := [Node.text "\n", barHead, .text " ", pathCell, .text "\n"]
    (∀ n ∈ row, isRowContent n) ∧ row.filter isCell = [barHead, pathCell] ∧
      (∀ cell ∈ [barHead, pathCell].map (cellText {}), BarSafe cell) ∧
      ∃ line,
        ((element "row" [] row).render {} 0 {}).text =
          "" ++ "\n" ++ line ++ ("\n" ++ "--------- | ---------") ∧
        separators line.toList = 1 := by
  intro row
  have hcontent : ∀ n ∈ row, isRowContent n := by decide
  have hcells : row.filter isCell = [barHead, pathCell] := rfl
  have hsafe : ∀ cell ∈ [barHead, pathCell].map (cellText {}), BarSafe cell := by decide
  obtain ⟨line, hline, -, -, hcount, -⟩ := render_row hcontent hcells [] {} 0 {}
  exact ⟨hcontent, hcells, hsafe, line, hline, hcount hsafe⟩

/-- A backslash at the end of a cell takes the separator behind it. -/
theorem Node.not_render_row_backslash :
    ¬∀ (children : List Node) (first : Node) (others : List Node) (line : String),
      (∀ n ∈ children, isRowContent n) → children.filter isCell = first :: others →
        first.attr "thead" ≠ "yes" →
        ((element "row" [] children).render {} 0 {}).text = "\n" ++ line →
        separators line.toList = others.length := by
  intro h
  have hcount := h [element "entry" [] [text "C:\\"], element "entry" [] [text "x"]]
    (element "entry" [] [text "C:\\"]) [element "entry" [] [text "x"]] "C:\\|x" (by decide) rfl
    (by decide) (by decide)
  revert hcount
  decide

end DoxPages
