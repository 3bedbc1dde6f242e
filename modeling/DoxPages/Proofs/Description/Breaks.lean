import DoxPages.Proofs.Description.Behind
import DoxPages.Proofs.Description.Keeping

/-!
# Breaks between tags

Markup is often written with a tag on each line, which leaves blank texts between the tags.
Those without a space are passed over: they neither show nor count among the siblings,
whose positions decide on separators. `Respaced` relates lists of nodes that differ in such
breaks alone, at any depth, and `Description.toMarkdown_respaced` says that they are
rendered alike. Only where the text of an element is written instead of its content it is
written with its breaks.
-/

namespace DoxPages

open Text Output

def Node.isBreak : Node → Bool
  | text s => allBlank s.toList && !s.toList.contains ' '
  | element .. => false

theorem Node.isVisible_eq_not_isBreak (n : Node) : n.isVisible = !n.isBreak := by
  cases n with
  | text s => simp [isVisible, isBreak]
  | element tag attrs children => rfl

theorem Node.not_isVisible_of_isBreak {n : Node} (h : n.isBreak = true) : ¬n.isVisible = true := by
  simp [n.isVisible_eq_not_isBreak, h]

def textTags : List String := ["title", "formula", "verbatim"]

/-- One list of nodes is made from another by inserting and deleting breaks among the nodes and
among the children of elements, but not where only the text counts. -/
inductive Respaced : List Node → List Node → Prop where
  | nil : Respaced [] []
  | insert {b : Node} {ns ms : List Node} : b.isBreak = true → Respaced ns ms →
      Respaced ns (b :: ms)
  | delete {b : Node} {ns ms : List Node} : b.isBreak = true → Respaced ns ms →
      Respaced (b :: ns) ms
  | keep (n : Node) {ns ms : List Node} : Respaced ns ms → Respaced (n :: ns) (n :: ms)
  | within {tag : String} (attrs : List (String × String)) {cs ds ns ms : List Node} :
      tag ∉ textTags → Respaced cs ds → Respaced ns ms →
      Respaced (.element tag attrs cs :: ns) (.element tag attrs ds :: ms)

namespace Rule

theorem tag_of_readsText {tag : String} {rule : Rule} (h : ofTag? tag = some rule)
    (hreads : rule.readsText = true) : tag ∈ textTags := by
  have hmem := mem_table h
  cases rule with
  | verbatim | formula | title =>
    simp only [table, content, List.mem_cons, Prod.mk.injEq, reduceCtorEq, and_false, and_true,
      false_or, or_false, List.not_mem_nil] at hmem
    rw [hmem]
    decide
  | _ => cases hreads

end Rule

namespace Respaced

variable {ns ms : List Node}

theorem heads_cells (h : Respaced ns ms) (tag : String) (attrs : List (String × String)) :
    ((Node.element tag attrs ns).elements "entry").map (·.attr "thead") =
      ((Node.element tag attrs ms).elements "entry").map (·.attr "thead") := by
  have hbreak {b : Node} (hb : b.isBreak = true) : ¬b.isCell = true := by
    cases b with
    | text s => nofun
    | element tag attrs children => cases hb
  rw [Node.elements_entry, Node.elements_entry]
  induction h with
  | nil => rfl
  | insert hb _ ih => rw [List.filter_cons_of_neg (hbreak hb), ih]
  | delete hb _ ih => rw [List.filter_cons_of_neg (hbreak hb), ih]
  | keep n _ ih =>
    rw [List.filter_cons, List.filter_cons]
    split
    · rw [List.map_cons, List.map_cons, ih]
    · exact ih
  | @within tag attrs cs ds ns ms _ _ _ _ ih =>
    have hcell : (Node.element tag attrs cs).isCell = (Node.element tag attrs ds).isCell := rfl
    rw [List.filter_cons, List.filter_cons, hcell]
    split
    · rw [List.map_cons, List.map_cons, ih]
      rfl
    · exact ih

theorem seesSame {tag : String} {cs ds : List Node} (h : Respaced cs ds)
    (attrs : List (String × String)) (htag : tag ∉ textTags) {rule : Rule}
    (hrule : Rule.ofTag? tag = some rule) :
    rule.SeesSame (.element tag attrs cs) (.element tag attrs ds) where
  attr _ _ := rfl
  text hreads := absurd (Rule.tag_of_readsText hrule hreads) htag
  heads := h.heads_cells tag attrs

/-- Nodes that differ in breaks are rendered alike. -/
theorem renderAll_eq (h : Respaced ns ms) (cx : Context) (index : Nat) (out : Output) :
    renderAll cx index ms out = renderAll cx index ns out := by
  induction h generalizing cx index out with
  | nil => rfl
  | insert hb _ ih => rw [renderAll, if_neg (Node.not_isVisible_of_isBreak hb), ih]
  | delete hb _ ih =>
    rw [ih]
    conv => rhs; rw [renderAll, if_neg (Node.not_isVisible_of_isBreak hb)]
  | keep n _ ih =>
    rw [renderAll, renderAll]
    split
    · exact ih ..
    · exact ih ..
  | @within tag attrs cs ds ns ms htag hcs _ ihcs ihns =>
    have helement : (Node.element tag attrs ds).render cx index out =
        (Node.element tag attrs cs).render cx index out := by
      rw [Node.render, Node.render]
      cases hrule : Rule.ofTag? tag with
      | none => exact ihcs ..
      | some rule =>
        have hcontent (cx : Context) (base : List String) (out : Output) (hbase : Firm base) :
            renderAll cx 0 ds (out.onto base id) = (renderAll cx 0 cs out).onto base id := by
          rw [ihcs, renderAll_onto (fun _ _ => rfl) hbase none]
        have hrender := Rule.render_onto hcontent firm_nil (hcs.seesSame attrs htag hrule)
          (fun _ _ _ => rfl) cx index out
        rwa [onto_nil_id, onto_nil_id] at hrender
    rw [renderAll, renderAll, helement]
    exact ihns ..

end Respaced

namespace Description

/-- Breaks between tags do not matter to the Markdown of a description, nor to the reports. -/
theorem toMarkdown_respaced {d e : Description} (h : Respaced d.roots e.roots)
    (resolver : Option Resolver) : d.toMarkdown resolver = e.toMarkdown resolver := by
  simp only [toMarkdown, render_eq_renderAll_roots, h.renderAll_eq]

def onOneLine : Description :=
  .node (.element "detaileddescription" [] [
    .element "para" [] [.text "One"],
    .element "para" [] [.text "Two", .element "table" [] [
      .element "row" [] [.element "entry" [("thead", "yes")] [.text "A"]]]]])

def onManyLines : Description :=
  .node (.element "detaileddescription" [] [
    .text "\n",
    .element "para" [] [.text "One"],
    .text "\n",
    .element "para" [] [.text "Two", .text "", .element "table" [] [
      .text "\n\t",
      .element "row" [] [.text "\n", .element "entry" [("thead", "yes")] [.text "A"], .text "\n"],
      .text "\n"]],
    .text "\n"])

theorem toMarkdown_respaced_lines :
    Respaced onOneLine.roots onManyLines.roots ∧
      onOneLine.toMarkdown none = onManyLines.toMarkdown none := by
  have hrow : Respaced [.element "entry" [("thead", "yes")] [.text "A"]]
      [.text "\n", .element "entry" [("thead", "yes")] [.text "A"], .text "\n"] :=
    .insert (by decide) (.keep _ (.insert (by decide) .nil))
  have htable : Respaced [.element "row" [] [.element "entry" [("thead", "yes")] [.text "A"]]]
      [.text "\n\t", .element "row" [] [.text "\n", .element "entry" [("thead", "yes")] [.text "A"],
        .text "\n"], .text "\n"] :=
    .insert (by decide) (.within _ (by decide) hrow (.insert (by decide) .nil))
  have h : Respaced onOneLine.roots onManyLines.roots :=
    .within _ (by decide)
      (.insert (by decide) (.keep _ (.insert (by decide) (.within _ (by decide)
        (.keep _ (.insert (by decide) (.within _ (by decide) htable .nil)))
        (.insert (by decide) .nil)))))
      .nil
  exact ⟨h, toMarkdown_respaced h none⟩

end Description

end DoxPages
