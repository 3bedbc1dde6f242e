import DoxPages.Proofs.Description.Unsupported

/-!
# Headings that break off

A rendering breaks off at a heading whose level is no count, and nowhere else. So a
description is rendered to its end exactly if none of the nodes it shows is such a heading
(`Node.stopped_toMarkdown_iff`). What stands below an element that does not render its content
(`hidingTags`) does no harm.
-/

namespace DoxPages

open Output

namespace Node

/-- A heading on a level that is no count. -/
def isTooDeep (n : Node) : Bool :=
  n.isElement && n.tag == "heading" && !isCount (Rule.headingLevel (n.attr "level" "0"))

/-- Whether such a heading is rendered along with a node. -/
def overflows (n : Node) : Bool := (n.outside hidingTags).any isTooDeep

theorem overflows_text (s : String) : (text s).overflows = false := rfl

theorem overflows_element (tag : String) (attrs : List (String × String)) (children : List Node) :
    (element tag attrs children).overflows = ((element tag attrs children).isTooDeep ||
      (!decide (tag ∈ hidingTags) && (outsideAll hidingTags children).any isTooDeep)) := by
  rw [overflows, outside, List.any_cons]
  congr 1
  by_cases h : tag ∈ hidingTags <;> simp [h]

theorem isTooDeep_of_tag_ne {tag : String} (htag : tag ≠ "heading")
    (attrs : List (String × String)) (children : List Node) :
    (element tag attrs children).isTooDeep = false := by
  rw [isTooDeep, show (element tag attrs children).tag = tag from rfl, beq_false_of_ne htag]
  rfl

theorem not_overflows_of_tag_ne {tag : String} (htag : tag ≠ "heading")
    (attrs : List (String × String)) {children : List Node}
    (h : (outsideAll hidingTags children).any isTooDeep = false) :
    (element tag attrs children).overflows = false := by
  rw [overflows_element, isTooDeep_of_tag_ne htag, h, Bool.and_false, Bool.or_false]

theorem any_outsideAll_cons (n : Node) (ns : List Node) :
    (outsideAll hidingTags (n :: ns)).any isTooDeep =
      (n.overflows || (outsideAll hidingTags ns).any isTooDeep) := by
  rw [outsideAll, List.any_append, overflows]

end Node

namespace Output

def isStopped (o : Output) : Bool := o.stopped.isSome

variable (o : Output)

@[simp] theorem isStopped_write (s : String) : (o.write s).isStopped = o.isStopped := by
  unfold write
  split <;> rfl

@[simp] theorem isStopped_report (e : Event) : (o.report e).isStopped = o.isStopped := rfl

@[simp] theorem isStopped_dropSpace : o.dropSpace.isStopped = o.isStopped := by
  unfold dropSpace
  split <;> rfl

@[simp] theorem isStopped_stopUnless (ok : Bool) :
    (o.stopUnless ok).isStopped = (o.isStopped || !ok) := by
  unfold stopUnless isStopped
  cases ok <;> simp

theorem isStopped_ite (c : Prop) [Decidable c] (p : Output) (h : p.isStopped = o.isStopped) :
    (if c then o else p).isStopped = o.isStopped := by
  split
  · rfl
  · exact h

end Output

/-! ## Along the tree -/

namespace Rule

/-- Whether a rule breaks off before it comes to the content. -/
def stops (rule : Rule) (el : Node) : Bool :=
  match rule with
  | heading => !isCount (headingLevel (el.attr "level" "0"))
  | _ => false

theorem tag_of_heading {tag : String} (h : ofTag? tag = some heading) : tag = "heading" := by
  simpa [table, content] using mem_table h

theorem stops_eq {tag : String} {rule : Rule} (h : ofTag? tag = some rule)
    (attrs : List (String × String)) (children : List Node) :
    rule.stops (.element tag attrs children) = (Node.element tag attrs children).isTooDeep := by
  have hheading : ofTag? "heading" = some heading := by decide
  by_cases hrule : rule = heading
  · subst hrule
    obtain rfl := tag_of_heading h
    rfl
  · have htag : tag ≠ "heading" := by
      rintro rfl
      exact hrule (Option.some.inj (h.symm.trans hheading))
    rw [Node.isTooDeep_of_tag_ne htag]
    cases rule <;> first | rfl | exact absurd rfl hrule

section
variable {content : Content} {deep : Bool}
  (hc : ∀ cx out, (content cx out).isStopped = (out.isStopped || deep))
include hc

theorem isStopped_apart (cx : Context) (out : Output) :
    (apart content cx out).2.isStopped = (out.isStopped || deep) :=
  hc cx.apart { out with fragments := [] }

/-- A rule breaks off by itself or along with its content. -/
theorem isStopped_render (rule : Rule) (el : Node) (cx : Context) (index : Nat) (out : Output) :
    (rule.render el content cx index out).isStopped =
      (out.isStopped || (rule.stops el || (!rule.hides && deep))) := by
  cases rule with
  | para =>
    simp only [render, stops, hides, hc]
    rw [isStopped_ite _ _ _ (by rw [isStopped_write, isStopped_write])]
    rfl
  | list | subsection =>
    simp only [render, stops, hides, hc]
    rw [isStopped_ite _ _ _ (isStopped_write ..)]
    rfl
  | item =>
    simp only [render, stops, hides, hc, isStopped_write]
    rw [isStopped_ite _ _ _ (isStopped_write ..)]
    rfl
  | note | link =>
    simp only [render]
    split <;> simp [stops, hides, hc, isStopped_apart hc]
  | reference =>
    simp only [render, renderReference]
    split
    · simp [stops, hides, isStopped_apart hc]
    · split
      · split <;> simp [stops, hides, isStopped_apart hc]
      · simp [stops, hides, isStopped_apart hc]
  | heading => simp [render, stops, hides, hc, Bool.or_assoc]
  | _ => simp [render, stops, hides, hc, isStopped_apart hc]

end

end Rule

mutual

theorem Node.isStopped_render (cx : Context) (index : Nat) : ∀ (n : Node) (out : Output),
    (n.render cx index out).isStopped = (out.isStopped || n.overflows)
  | .text s, out => by
    rw [Node.render, isStopped_write, Node.overflows_text, Bool.or_false]
  | .element tag attrs children, out => by
    have hc (cx : Context) (out : Output) : (renderAll cx 0 children out).isStopped =
        (out.isStopped || (Node.outsideAll hidingTags children).any Node.isTooDeep) :=
      isStopped_renderAll cx 0 children out
    rw [Node.render, Node.overflows_element]
    cases hrule : Rule.ofTag? tag with
    | some rule =>
      rw [← Rule.stops_eq hrule, ← Rule.hides_iff hrule]
      exact Rule.isStopped_render hc ..
    | none =>
      have htag : tag ≠ "heading" := by
        rintro rfl
        exact absurd hrule (by decide)
      rw [Node.isTooDeep_of_tag_ne htag, decide_eq_false (Rule.not_mem_hidingTags hrule)]
      exact hc cx _

theorem isStopped_renderAll (cx : Context) (index : Nat) : ∀ (ns : List Node) (out : Output),
    (renderAll cx index ns out).isStopped =
      (out.isStopped || (Node.outsideAll hidingTags ns).any Node.isTooDeep)
  | [], out => by
    rw [renderAll]
    exact (Bool.or_false _).symm
  | n :: ns, out => by
    rw [renderAll, Node.any_outsideAll_cons, ← Bool.or_assoc]
    split
    · rw [isStopped_renderAll cx (index + 1) ns, n.isStopped_render cx index out]
    · rename_i hvisible
      obtain ⟨s, rfl, -⟩ := Node.exists_text_of_invisible (by simpa using hvisible)
      rw [isStopped_renderAll cx index ns, Node.overflows_text, Bool.or_false]

end

/-! ## Whole descriptions -/

/-- The Markdown of a node is written to its end exactly if the node shows no heading that is
too deep. -/
theorem Node.stopped_toMarkdown_iff (resolver : Option Resolver) (n : Node) :
    (n.toMarkdown resolver).stopped = none ↔ n.overflows = false := by
  have hrender := n.isStopped_render { resolver } 0 {}
  rw [show isStopped {} = false from rfl, Bool.false_or] at hrender
  rw [← hrender, isStopped, Option.isSome_eq_false_iff, Option.isNone_iff_eq_none]
  exact Option.map_eq_none_iff

/-- A heading on the first level that is no count. -/
def deepHeading : Node := .element "heading" [("level", "9223372036854775808")] []

example : (Node.element "para" [] [deepHeading]).overflows = true ∧
    (Node.element "title" [] [deepHeading]).overflows = false := by
  decide

end DoxPages
