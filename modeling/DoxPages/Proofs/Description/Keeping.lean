import DoxPages.Assoc
import DoxPages.Description.Render
import DoxPages.Proofs.Description.Ink
import DoxPages.Proofs.Links.Keeping

/-!
# Rendering keeps the text of a description

Every rule adds the ink of its element's text behind what was written before, so
a whole description does. What is lost is listed in `FullyLegible`: text where only
a mark or nothing is written, the brackets of displayed formulas, and text between
the cells of a row.
-/

namespace DoxPages

open Text Output

theorem Node.exists_text_of_invisible {n : Node} (h : n.isVisible = false) :
    ∃ s, n = text s ∧ allBlank s.toList = true := by
  cases n with
  | text s =>
    simp only [isVisible, Bool.or_eq_false_iff, Bool.not_eq_false'] at h
    exact ⟨s, rfl, h.1⟩
  | element tag attrs children => cases h

theorem Node.cellInk_of_invisible {n : Node} (h : n.isVisible = false) : n.cellInk = [] := by
  obtain ⟨s, rfl, hblank⟩ := exists_text_of_invisible h
  simp [cellInk, ink, textContent, tag, ink_eq_nil_iff.2 hblank]

/-! ## Conditions -/

def isBracketed (source : String) : Prop :=
  "\\[".toList <+: strip source.toList ∧ "\\]".toList <:+ strip source.toList

instance (source : String) : Decidable (isBracketed source) :=
  inferInstanceAs (Decidable (_ ∧ _))

def isRowContent : Node → Prop
  | .text s => allBlank s.toList = true
  | .element tag _ _ => tag = "entry"

instance : DecidablePred isRowContent
  | .text s => inferInstanceAs (Decidable (allBlank s.toList = true))
  | .element tag _ _ => inferInstanceAs (Decidable (tag = "entry"))

/-- No text stands where none is written. -/
structure Legible (nodes : List Node) : Prop where
  anchors : ∀ n ∈ nodes, n.tag = "anchor" → n.ink = []
  formulas : ∀ n ∈ nodes, n.tag = "formula" → ¬isBracketed n.textContent
  rows : ∀ n ∈ nodes, n.tag = "row" → ∀ c ∈ n.children, isRowContent c

def markTags : List String :=
  ["sp", "nonbreakablespace", "ensp", "emsp", "thinsp", "mdash", "ndash", "linebreak", "hruler"]

structure FullyLegible (nodes : List Node) : Prop extends Legible nodes where
  marks : ∀ n ∈ nodes, n.tag ∈ markTags → n.ink = []

theorem FullyLegible.mono {ms ns : List Node} (h : FullyLegible ns) (hs : ms ⊆ ns) :
    FullyLegible ms where
  anchors n hn := h.anchors n (hs hn)
  formulas n hn := h.formulas n (hs hn)
  rows n hn := h.rows n (hs hn)
  marks n hn := h.marks n (hs hn)

/-! ## Texts made for one element -/

theorem Node.ink_sublist_textFragment (cx : Context) (s : String) :
    (Text.ink s.toList).Sublist (Text.ink (textFragment cx s).toList) := by
  unfold textFragment
  split
  · rename_i hblank
    rw [ink_eq_nil_iff.2 hblank]
    exact List.nil_sublist _
  · split
    · rename_i r _
      rw [toList_onChars]
      exact ink_mono (r.linker.sublist_apply s.toList)
    · exact List.Sublist.refl _

/-- Only a bar behind the last cell is taken away. -/
theorem ink_trimRow (cs : List Char) :
    ink cs = ink (trimRow cs) ∨ ink cs = ink (trimRow cs) ++ ['|'] := by
  rw [← ink_stripRight cs]
  unfold trimRow
  simp only
  generalize stripRight cs = row
  split
  · exact .inl rfl
  · rename_i rest _ hrow
    have hbar : ink ['|'] = ['|'] := by decide
    obtain rfl : row = rest.reverse ++ ['|'] := by
      rw [← List.reverse_cons, ← hrow, List.reverse_reverse]
    rw [ink_append, hbar, ink_stripRight]
    exact .inr rfl
  · exact .inl rfl

theorem sublist_ink_trimRow {w cs : List Char} (h : (w ++ ['|']).Sublist (ink cs)) :
    w.Sublist (ink (trimRow cs)) := by
  rcases ink_trimRow cs with hink | hink <;> rw [hink] at h
  · exact (List.sublist_append_left ..).trans h
  · exact (List.append_sublist_append_right _).1 h

theorem ink_sublist_escapeCell (cs : List Char) : (ink cs).Sublist (ink (escapeCell cs)) := by
  unfold escapeCell
  rw [← ink_trim_lines cs]
  exact (ink_mono (sublist_replaceChar (by decide) _)).trans
    (ink_sublist_replaceChar (by decide) ..)

theorem ink_sublist_formulaText {source : String} (h : ¬isBracketed source) :
    (ink source.toList).Sublist (ink (Rule.formulaText source).toList) := by
  unfold Rule.formulaText
  simp only
  split
  · rw [String.toList_ofList]
    exact (ink_strip source.toList).symm ▸ List.Sublist.refl _
  · rw [if_neg fun hb => h ⟨List.isPrefixOf_iff_prefix.1 hb.1, List.isSuffixOf_iff_suffix.1 hb.2⟩]
    simp only [String.toList_append, String.toList_ofList, ink_append, ink_strip]
    exact (List.sublist_append_right ..).trans (List.sublist_append_left ..)

/-! ## Rules -/

namespace Rule

theorem of_apart (content : Content) (cx : Context) {w : List Char} {out p : Output}
    (h : Adds w (apart content cx out).2 p) : Adds w out p := h

section
variable {content : Content} {w : List Char} (hc : ∀ cx out, Adds w out (content cx out))
include hc

theorem sublist_apart (cx : Context) (out : Output) :
    w.Sublist (ink (apart content cx out).1.toList) := by
  have h : Adds w { out with fragments := [] }
    (content cx.apart { out with fragments := [] }) := hc _ _
  unfold apart
  simp only [toList_onChars, ink_strip]
  exact (List.sublist_append_right ..).trans h

theorem renderReference_adds (el : Node) (cx : Context) (out : Output) :
    Adds w out (renderReference el content cx out) := by
  have hlabel := sublist_apart hc {} out
  have hlink (target : String) :
      w.Sublist (ink (codeLink (apart content {} out).1 target).toList) :=
    hlabel.trans (ink_mono (sublist_codeLink ..))
  have hcode : w.Sublist (ink ("`" ++ (apart content {} out).1 ++ "`").toList) := by
    simp only [String.toList_append, ink_append]
    exact hlabel.trans ((List.sublist_append_right ..).trans (List.sublist_append_left ..))
  unfold renderReference
  simp only
  refine of_apart content {} ?_
  split
  · exact Adds.write_self hlabel _
  · split
    · split
      · exact Adds.write_self (hlink _) _
      · exact (Adds.write_self hcode _).of_report
    · exact (Adds.write_self hcode _).of_report

theorem row_adds (hbar : w = [] ∨ ∀ cx out, Adds (w ++ ['|']) out (content cx out)) (el : Node)
    (cx : Context) (index : Nat) (out : Output) :
    Adds w out (render row el content cx index out) := by
  have htext : w.Sublist (ink (onChars trimRow (apart content cx out).1).toList) := by
    rw [toList_onChars]
    rcases hbar with rfl | hbar
    · exact List.nil_sublist _
    · exact sublist_ink_trimRow (sublist_apart hbar cx out)
  exact of_apart content cx ((Adds.write_self htext _).write _).of_write

theorem cell_adds (el : Node) (cx : Context) (index : Nat) (out : Output) :
    Adds (w ++ ['|']) out (render cell el content cx index out) := by
  have htext : w.Sublist (ink (onChars escapeCell (apart content cx out).1).toList) := by
    rw [toList_onChars]
    exact (sublist_apart hc cx out).trans (ink_sublist_escapeCell _)
  have hbar : ['|'].Sublist (ink "|".toList) := by decide
  exact of_apart content cx ((Adds.write_self htext _).trans (Adds.write_self hbar _))

/-- What a rule has to know of its element so that no text is lost. -/
def Shows (rule : Rule) (el : Node) (content : Content) : Prop :=
  match rule with
  | literal _ | nothing => el.ink = []
  | formula => ¬isBracketed el.textContent
  | row => el.ink = [] ∨ ∀ cx out, Adds (el.ink ++ ['|']) out (content cx out)
  | _ => True

end

theorem render_adds {rule : Rule} {el : Node} {content : Content}
    (hc : ∀ cx out, Adds el.ink out (content cx out)) (hs : rule.Shows el content)
    (cx : Context) (index : Nat) (out : Output) :
    Adds el.ink out (render rule el content cx index out) := by
  cases rule with
  | literal text =>
    rw [show el.ink = [] from hs]
    exact (Adds.of_ink rfl).write _
  | wrap before after => exact (hc _ _).of_write.write _
  | code before after => exact (hc _ _).of_write.write _
  | nothing =>
    rw [show el.ink = [] from hs]
    exact Adds.of_ink rfl
  | para =>
    have h := hc cx (if index = 0 then out else (out.write "\n\n").write (spaces cx.indent))
    unfold render
    split at h <;> rename_i hindex
    · rw [if_pos hindex]
      exact h
    · rw [if_neg hindex]
      exact h.of_write.of_write
  | list numbered => exact (hc _ _).of_ite
  | item => exact (hc _ _).of_write.of_write.of_ite
  | parameters => exact (hc _ _).of_write.write _
  | listing => exact (hc _ _).of_write.write _
  | verbatim =>
    have htext : el.ink.Sublist (ink (onChars (trim (· == '\n')) el.textContent).toList) := by
      rw [toList_onChars, ink_trim_lines]
      exact List.Sublist.refl _
    exact ((Adds.write_self htext _).write _).of_write
  | note =>
    unfold render
    simp only
    split
    · exact (hc _ _).of_write
    · exact (hc _ _).of_report
  | formula => exact Adds.write_self (ink_sublist_formulaText hs) _
  | subsection level => exact (hc _ _).of_ite
  | title =>
    have htext : el.ink.Sublist (ink el.strippedText.toList) := by
      rw [Node.strippedText, toList_onChars, ink_strip]
      exact List.Sublist.refl _
    exact (Adds.write_self htext _).of_write.of_write
  | heading => exact (hc _ _).of_write.of_write.of_stopUnless.of_dropSpace
  | link =>
    have hlabel := sublist_apart hc cx out
    unfold render
    simp only
    refine of_apart content cx ?_
    split
    · exact Adds.write_self hlabel _
    · exact ((((Adds.write_self hlabel _).write _).write _).write _).of_write
  | reference => exact renderReference_adds hc el cx out
  | row => exact row_adds hc hs el cx index out
  | cell => exact (cell_adds hc el cx index out).mono (List.sublist_append_left ..)

/-! ## Tags and their rules -/

theorem mem_table {tag : String} {rule : Rule} (h : ofTag? tag = some rule) :
    (tag, rule) ∈ table := Assoc.mem_of_lookup h

theorem tag_of_nothing {tag : String} (h : ofTag? tag = some nothing) : tag = "anchor" := by
  simpa [table, content] using mem_table h

theorem tag_of_formula {tag : String} (h : ofTag? tag = some formula) : tag = "formula" := by
  simpa [table, content] using mem_table h

theorem tag_of_row {tag : String} (h : ofTag? tag = some row) : tag = "row" := by
  simpa [table, content] using mem_table h

theorem tag_of_literal {tag text : String} (h : ofTag? tag = some (literal text)) :
    tag ∈ markTags := by
  have hmem := mem_table h
  simp only [table, content, List.mem_cons, Prod.mk.injEq, reduceCtorEq, and_false, false_or,
    or_false, literal.injEq, List.not_mem_nil] at hmem
  simp only [markTags, List.mem_cons]
  grind

theorem ofTag?_entry : ofTag? "entry" = some cell := by decide

end Rule

/-! ## Along the tree -/

section
variable {tag : String} {attrs : List (String × String)} {children : List Node}

/-- The text of a row is that of its cells, with a bar behind the last. -/
theorem row_bar (h : ∀ c ∈ children, isRowContent c) :
    Text.ink (Node.textContents children).toList = [] ∨
      (Text.ink (Node.textContents children).toList ++ ['|']).Sublist
        (children.flatMap Node.cellInk) := by
  induction children with
  | nil => exact .inl rfl
  | cons c cs ih =>
    rw [Node.ink_textContents_cons, List.flatMap_cons]
    have hc := h c List.mem_cons_self
    have ih := ih fun d hd => h d (List.mem_cons_of_mem _ hd)
    cases c with
    | text s =>
      have hs : (Node.text s).ink = [] := ink_eq_nil_iff.2 hc
      rw [hs, List.nil_append]
      exact ih.imp_right fun hbar => hbar.trans (List.sublist_append_right ..)
    | element tag attrs cells =>
      right
      rw [Node.cellInk, if_pos (show (Node.element tag attrs cells).tag = "entry" from hc)]
      rcases ih with hnil | hbar
      · rw [hnil, List.append_nil]
        exact List.sublist_append_left ..
      · rw [List.append_assoc]
        exact (List.sublist_append_left ..).append hbar

theorem FullyLegible.below (h : FullyLegible (Node.element tag attrs children).within) :
    FullyLegible (Node.withinAll children) :=
  h.mono (by rw [Node.within]; exact List.subset_cons_self ..)

theorem FullyLegible.shows (h : FullyLegible (Node.element tag attrs children).within)
    {rule : Rule} (hrule : Rule.ofTag? tag = some rule) {content : Rule.Content}
    (hc : ∀ cx out, Adds (children.flatMap Node.cellInk) out (content cx out)) :
    rule.Shows (.element tag attrs children) content := by
  have hmem : Node.element tag attrs children ∈ (Node.element tag attrs children).within := by
    rw [Node.within]
    exact List.mem_cons_self
  cases rule with
  | literal text => exact h.marks _ hmem (Rule.tag_of_literal hrule)
  | nothing => exact h.anchors _ hmem (Rule.tag_of_nothing hrule)
  | formula => exact h.formulas _ hmem (Rule.tag_of_formula hrule)
  | row =>
    unfold Rule.Shows
    rw [Node.ink_element]
    exact (row_bar (h.rows _ hmem (Rule.tag_of_row hrule))).imp_right fun hbar cx out =>
      (hc cx out).mono hbar
  | _ => trivial

theorem element_adds (h : FullyLegible (Node.element tag attrs children).within)
    {content : Rule.Content}
    (hc : ∀ cx out, Adds (children.flatMap Node.cellInk) out (content cx out)) {rule : Rule}
    (hrule : Rule.ofTag? tag = some rule) (cx : Context) (index : Nat) (out : Output) :
    Adds (Node.element tag attrs children).cellInk out
      (rule.render (.element tag attrs children) content cx index out) := by
  have hink (cx : Context) (out : Output) :
      Adds (Node.element tag attrs children).ink out (content cx out) := by
    rw [Node.ink_element]
    exact (hc cx out).mono (Node.ink_textContents_sublist children)
  unfold Node.cellInk
  split
  · rename_i hentry
    obtain rfl : tag = "entry" := hentry
    obtain rfl : Rule.cell = rule := Option.some.inj (Rule.ofTag?_entry.symm.trans hrule)
    exact Rule.cell_adds hink _ cx index out
  · rw [List.append_nil]
    exact Rule.render_adds hink (h.shows hrule hc) cx index out

end

mutual

theorem Node.render_adds (cx : Context) (index : Nat) :
    ∀ (n : Node) (out : Output), FullyLegible n.within → Adds n.cellInk out (n.render cx index out)
  | .text s, out, _ => by
    have htext : (Node.text s).cellInk = Text.ink s.toList := by
      simp [Node.cellInk, Node.ink, Node.textContent, Node.tag]
    rw [Node.render, htext]
    exact Adds.write_self (Node.ink_sublist_textFragment cx s) out
  | .element tag attrs children, out, h => by
    have hc (cx : Context) (out : Output) :
        Adds (children.flatMap Node.cellInk) out (renderAll cx 0 children out) :=
      renderAll_adds cx 0 children out h.below
    rw [Node.render]
    split
    · rename_i rule hrule
      exact element_adds h hc hrule cx index out
    · rename_i hrule
      have htag : (Node.element tag attrs children).tag ≠ "entry" := fun ht => by
        obtain rfl : tag = "entry" := ht
        rw [Rule.ofTag?_entry] at hrule
        cases hrule
      have hink : (Node.element tag attrs children).cellInk.Sublist
          (children.flatMap Node.cellInk) := by
        rw [Node.cellInk, if_neg htag, List.append_nil, Node.ink_element]
        exact Node.ink_textContents_sublist children
      exact ((hc cx _).mono hink).of_report

theorem renderAll_adds (cx : Context) (index : Nat) :
    ∀ (ns : List Node) (out : Output), FullyLegible (Node.withinAll ns) →
      Adds (ns.flatMap Node.cellInk) out (renderAll cx index ns out)
  | [], out, _ => by
    rw [renderAll]
    exact Adds.of_ink rfl
  | n :: ns, out, h => by
    have hn : FullyLegible n.within :=
      h.mono (by rw [Node.withinAll]; exact List.subset_append_left ..)
    have hns : FullyLegible (Node.withinAll ns) :=
      h.mono (by rw [Node.withinAll]; exact List.subset_append_right ..)
    rw [renderAll, List.flatMap_cons]
    split
    · exact (n.render_adds cx index out hn).trans (renderAll_adds cx (index + 1) ns _ hns)
    · rename_i hvisible
      rw [Node.cellInk_of_invisible (by simpa using hvisible), List.nil_append]
      exact renderAll_adds cx index ns out hns

end

/-! ## Whole descriptions -/

namespace Description

def within : Description → List Node
  | node n => n.within
  | nodes ns => Node.withinAll ns

def textContent : Description → String
  | node n => n.textContent
  | nodes ns => Node.textContents ns

theorem render_adds {d : Description} (h : FullyLegible d.within) (cx : Context) (out : Output) :
    Adds (Text.ink d.textContent.toList) out (d.render cx out) := by
  cases d with
  | node n => exact (n.render_adds cx 0 out h).mono n.ink_sublist_cellInk
  | nodes ns => exact (renderAll_adds cx 0 ns out h).mono (Node.ink_textContents_sublist ns)

/-- Rendering loses no character of the text but blanks, and keeps their order. -/
theorem ink_sublist_toMarkdown (resolver : Option Resolver) {d : Description}
    (h : FullyLegible d.within) :
    (Text.ink d.textContent.toList).Sublist (d.toMarkdown resolver).value.toList := by
  have hadds : Adds (Text.ink d.textContent.toList) {} (d.render { resolver } {}) :=
    render_adds h _ _
  have hink : (Text.ink d.textContent.toList).Sublist
      (Text.ink (d.render { resolver } {}).text.toList) := hadds
  rw [← ink_strip (d.render { resolver } {}).text.toList] at hink
  rw [toMarkdown, toList_onChars]
  exact hink.trans (Text.ink_sublist _)

def sampleRow : Description :=
  .node (.element "row" [] [
    .element "entry" [] [.element "para" [] [.text "a | b"]],
    .text " \n",
    .element "entry" [] [
      .element "ref" [("refid", "c"), ("kindref", "compound")] [.text "std::map"],
      .element "sp" [] [], .element "unknown" [] [.text "\\"]]])

theorem ink_sublist_toMarkdown_sampleRow :
    FullyLegible sampleRow.within ∧
      "a|bstd::map\\".toList.Sublist
        (sampleRow.toMarkdown (some { compound? := fun _ => some "page" })).value.toList := by
  have h : FullyLegible sampleRow.within :=
    { anchors := by decide, formulas := by decide, rows := by decide, marks := by decide }
  have htext : "a|bstd::map\\".toList = Text.ink sampleRow.textContent.toList := by decide
  refine ⟨h, ?_⟩
  rw [htext]
  exact ink_sublist_toMarkdown _ h

/-- A mark that holds text loses it. -/
theorem linebreak_loses_text :
    ¬∀ (resolver : Option Resolver) (d : Description), Legible d.within →
      (Text.ink d.textContent.toList).Sublist (d.toMarkdown resolver).value.toList := by
  intro hkeeps
  have h : Legible (node (.element "linebreak" [] [.text "x"])).within :=
    { anchors := by decide, formulas := by decide, rows := by decide }
  have hlost := hkeeps none _ h
  revert hlost
  decide

end Description

end DoxPages
