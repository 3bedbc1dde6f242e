import DoxPages.Proofs.Description.Behind
import DoxPages.Proofs.Description.Keeping

/-!
# Unsupported elements

An element without a rule, or a note of an unsupported kind, is rendered as its content and
reported. The first half is `Node.render_highlighted`: highlighted text, which is nothing
but its content, can stand in its place, and only the reports are missing then. The second
is `Node.complaints_render`: every such element is reported once, in document order, unless
it stands below an element that does not render its content (`hidingTags`).
-/

namespace DoxPages

open Text Output

def Event.isComplaint : Event → Bool
  | unsupportedElement _ | unsupportedNote _ => true
  | _ => false

def Log.uncomplaining (log : Log) : Log := log.filter fun e => !e.isComplaint

theorem Log.uncomplaining_cons_of_not {e : Event} (h : e.isComplaint = false) (log : Log) :
    uncomplaining (e :: log) = e :: log.uncomplaining :=
  List.filter_cons_of_pos (by rw [h]; rfl)

theorem Log.uncomplaining_cons {e : Event} (h : e.isComplaint = true) (log : Log) :
    uncomplaining (e :: log) = log.uncomplaining :=
  List.filter_cons_of_neg (by rw [h]; nofun)

namespace Node

/-- An element without a rule, or a note of an unsupported kind. -/
def isUnsupported (n : Node) : Bool :=
  n.isElement &&
    ((Rule.ofTag? n.tag).isNone ||
      (n.tag == "simplesect" && (noteOpening? (n.attr "kind")).isNone))

def complaint (n : Node) : Event :=
  if n.tag = "simplesect" then .unsupportedNote (n.attr "kind") else .unsupportedElement n.tag

theorem isComplaint_complaint (n : Node) : n.complaint.isComplaint = true := by
  unfold complaint
  split <;> rfl

mutual

/-- The tree with every unsupported element written as highlighted text, with attributes made
from its own. -/
def highlighted (as : List (String × String) → List (String × String)) : Node → Node
  | text s => text s
  | element tag attrs children =>
    if (element tag attrs children).isUnsupported then
      element "highlight" (as attrs) (highlightedAll as children)
    else element tag attrs (highlightedAll as children)

def highlightedAll (as : List (String × String) → List (String × String)) :
    List Node → List Node
  | [] => []
  | n :: ns => n.highlighted as :: highlightedAll as ns

end

mutual

/-- A node and the nodes below it in document order, without those below elements of some
tags. -/
def outside (tags : List String) : Node → List Node
  | text s => [text s]
  | element tag attrs children =>
    element tag attrs children :: if tag ∈ tags then [] else outsideAll tags children

def outsideAll (tags : List String) : List Node → List Node
  | [] => []
  | n :: ns => n.outside tags ++ outsideAll tags ns

end

end Node

def hidingTags : List String := ["title", "formula", "verbatim", "anchor"] ++ markTags

/-! ## Tags and their rules -/

namespace Rule

theorem ofTag?_simplesect : ofTag? "simplesect" = some note := by decide

theorem tag_of_note {tag : String} (h : ofTag? tag = some note) : tag = "simplesect" := by
  simpa [table, content] using mem_table h

def hides : Rule → Bool
  | literal _ | nothing | verbatim | formula | title => true
  | _ => false

theorem hides_iff {tag : String} {rule : Rule} (h : ofTag? tag = some rule) :
    rule.hides = decide (tag ∈ hidingTags) := by
  have htable : ∀ p ∈ table, p.2.hides = decide (p.1 ∈ hidingTags) := by decide
  exact htable _ (mem_table h)

theorem not_isComplaint_of_emits {rule : Rule} {el : Node}
    (hnote : rule = note → noteOpening? (el.attr "kind") ≠ none) {e : Event}
    (h : rule.Emits el e) : e.isComplaint = false := by
  cases rule with
  | note => exact absurd h.1 (hnote rfl)
  | reference =>
    cases e with
    | unknownReferenceKind | unresolvedReference => rfl
    | _ => cases h
  | _ => exact h.elim

theorem not_mem_hidingTags {tag : String} (h : ofTag? tag = none) : tag ∉ hidingTags := by
  have hrules : ∀ tag ∈ hidingTags, (ofTag? tag).isSome = true := by decide
  intro hmem
  have hsome := hrules tag hmem
  rw [h] at hsome
  cases hsome

end Rule

namespace Node

variable {tag : String} {attrs : List (String × String)} {children : List Node}

theorem render_unsupported (h : (element tag attrs children).isUnsupported = true) (cx : Context)
    (index : Nat) (out : Output) :
    (element tag attrs children).render cx index out =
      renderAll cx 0 children (out.report (element tag attrs children).complaint) := by
  rw [render]
  cases hrule : Rule.ofTag? tag with
  | none =>
    have htag : tag ≠ "simplesect" := by
      rintro rfl
      cases hrule.symm.trans Rule.ofTag?_simplesect
    simp only
    rw [complaint, if_neg (show ¬(element tag attrs children).tag = "simplesect" from htag)]
    rfl
  | some rule =>
    have hnote : tag = "simplesect" ∧
        noteOpening? ((element tag attrs children).attr "kind") = none := by
      simpa [isUnsupported, Node.tag, hrule, isElement] using h
    obtain ⟨rfl, hkind⟩ := hnote
    obtain rfl : Rule.note = rule := Option.some.inj (Rule.ofTag?_simplesect.symm.trans hrule)
    simp only [Rule.render, hkind]
    rfl

theorem exists_rule_of_supported (h : ¬(element tag attrs children).isUnsupported = true) :
    ∃ rule, Rule.ofTag? tag = some rule ∧
      (rule = .note → noteOpening? ((element tag attrs children).attr "kind") ≠ none) := by
  cases hrule : Rule.ofTag? tag with
  | none => exact absurd (by simp [isUnsupported, isElement, Node.tag, hrule]) h
  | some rule =>
    refine ⟨rule, rfl, ?_⟩
    rintro rfl hkind
    obtain rfl := Rule.tag_of_note hrule
    exact h (by simp [isUnsupported, isElement, Node.tag, hkind])

theorem not_mem_hidingTags (h : (element tag attrs children).isUnsupported = true) :
    tag ∉ hidingTags := by
  cases hrule : Rule.ofTag? tag with
  | none => exact Rule.not_mem_hidingTags hrule
  | some rule =>
    have htag : tag = "simplesect" := by
      simp only [isUnsupported, isElement, Node.tag, hrule, Option.isNone_some, Bool.true_and,
        Bool.false_or, Bool.and_eq_true, beq_iff_eq] at h
      exact h.1
    rw [htag]
    decide

/-! ## Highlighted text in their place -/

variable (as : List (String × String) → List (String × String))

theorem render_highlight (cs : List Node) (cx : Context) (index : Nat) (out : Output) :
    (element "highlight" attrs cs).render cx index out = renderAll cx 0 cs out := by
  have hrule : Rule.ofTag? "highlight" = some .content := by decide
  rw [render, hrule]
  simp only [Rule.content, Rule.render, write_empty]

theorem isVisible_highlighted (n : Node) : (n.highlighted as).isVisible = n.isVisible := by
  cases n with
  | text s => rfl
  | element tag attrs children =>
    rw [highlighted]
    split <;> rfl

mutual

theorem textContent_highlighted : ∀ n : Node, (n.highlighted as).textContent = n.textContent
  | text s => rfl
  | element tag attrs children => by
    rw [highlighted]
    split <;> rw [textContent, textContent, textContents_highlightedAll]

theorem textContents_highlightedAll : ∀ ns : List Node,
    textContents (highlightedAll as ns) = textContents ns
  | [] => rfl
  | n :: ns => by
    rw [highlightedAll, textContents, textContents, textContent_highlighted,
      textContents_highlightedAll]

end

theorem heads_highlightedAll (ns : List Node) :
    ((highlightedAll as ns).filter isCell).map (·.attr "thead") =
      (ns.filter isCell).map (·.attr "thead") := by
  induction ns with
  | nil => rfl
  | cons n ns ih =>
    have hcell : (n.highlighted as).isCell = n.isCell ∧
        (n.isCell = true → (n.highlighted as).attr "thead" = n.attr "thead") := by
      cases n with
      | text s => exact ⟨rfl, fun h => absurd h Bool.false_ne_true⟩
      | element tag attrs children =>
        rw [highlighted]
        split
        · rename_i h
          have htag : tag ≠ "entry" := by
            rintro rfl
            revert h
            simp [isUnsupported, isElement, Node.tag, Rule.ofTag?_entry]
          have hnot : (element tag attrs children).isCell = false := decide_eq_false htag
          rw [hnot]
          exact ⟨rfl, fun h => absurd h Bool.false_ne_true⟩
        · exact ⟨rfl, fun _ => rfl⟩
    rw [highlightedAll, List.filter_cons, List.filter_cons, hcell.1]
    split
    · rename_i h
      rw [List.map_cons, List.map_cons, ih, hcell.2 h]
    · exact ih

theorem seesSame_highlighted (rule : Rule) :
    rule.SeesSame (element tag attrs children)
      (element tag attrs (highlightedAll as children)) where
  attr _ _ := rfl
  text _ := by rw [textContent, textContent, textContents_highlightedAll]
  heads := by rw [elements_entry, elements_entry, heads_highlightedAll]

end Node

section
variable (as : List (String × String) → List (String × String))

mutual

/-- Highlighted text in place of unsupported elements is rendered the same, but for the reports
on them. -/
theorem Node.render_highlighted {base : List String} (hbase : Firm base) (cx : Context)
    (index : Nat) : ∀ (n : Node) (out : Output),
      (n.highlighted as).render cx index (out.onto base Log.uncomplaining) =
        (n.render cx index out).onto base Log.uncomplaining
  | .text s, out => by
    rw [Node.highlighted, Node.render, Node.render, write_onto]
  | .element tag attrs children, out => by
    have hc (cx : Context) (base : List String) (out : Output) (hbase : Firm base) :
        renderAll cx 0 (Node.highlightedAll as children) (out.onto base Log.uncomplaining) =
          (renderAll cx 0 children out).onto base Log.uncomplaining :=
      renderAll_highlighted hbase cx 0 children out
    rw [Node.highlighted]
    split
    · rename_i hunsupported
      rw [Node.render_highlight, Node.render_unsupported hunsupported, ← hc cx base _ hbase, onto,
        onto, report, Log.uncomplaining_cons (Node.isComplaint_complaint _)]
    · rename_i hsupported
      obtain ⟨rule, hrule, hnote⟩ := Node.exists_rule_of_supported hsupported
      rw [Node.render, Node.render, hrule]
      exact Rule.render_onto hc hbase (Node.seesSame_highlighted as rule)
        (fun e he => Log.uncomplaining_cons_of_not (Rule.not_isComplaint_of_emits hnote he)) ..

theorem renderAll_highlighted {base : List String} (hbase : Firm base) (cx : Context)
    (index : Nat) : ∀ (ns : List Node) (out : Output),
      renderAll cx index (Node.highlightedAll as ns) (out.onto base Log.uncomplaining) =
        (renderAll cx index ns out).onto base Log.uncomplaining
  | [], out => by
    rw [Node.highlightedAll, renderAll, renderAll]
  | n :: ns, out => by
    rw [Node.highlightedAll, renderAll, renderAll, n.isVisible_highlighted,
      n.render_highlighted hbase cx index out]
    split
    · exact renderAll_highlighted hbase cx (index + 1) ns _
    · exact renderAll_highlighted hbase cx index ns out

end

end

/-! ## Each is reported once -/

namespace Output

def complaints (o : Output) : Log := o.events.reverse.filter Event.isComplaint

variable {o : Output}

theorem complaints_write (s : String) : (o.write s).complaints = o.complaints := by
  rw [complaints, events_write, complaints]

theorem complaints_dropSpace : o.dropSpace.complaints = o.complaints := by
  rw [complaints, events_dropSpace, complaints]

theorem complaints_stopUnless (ok : Bool) : (o.stopUnless ok).complaints = o.complaints := by
  rw [complaints, events_stopUnless, complaints]

theorem complaints_report (e : Event) :
    (o.report e).complaints = o.complaints ++ [e].filter Event.isComplaint := by
  rw [complaints, report, List.reverse_cons, List.filter_append, complaints]

theorem complaints_ite (c : Prop) [Decidable c] (p : Output) (h : p.complaints = o.complaints) :
    (if c then o else p).complaints = o.complaints := by
  split
  · rfl
  · exact h

end Output

namespace Rule

section
variable {content : Content} {es : Log}
  (hc : ∀ cx out, (content cx out).complaints = out.complaints ++ es)
include hc

theorem complaints_apart (cx : Context) (out : Output) :
    (apart content cx out).2.complaints = out.complaints ++ es :=
  hc cx.apart { out with fragments := [] }

theorem complaints_render {rule : Rule} {el : Node}
    (hnote : rule = .note → noteOpening? (el.attr "kind") ≠ none) (cx : Context) (index : Nat)
    (out : Output) :
    (rule.render el content cx index out).complaints =
      out.complaints ++ if rule.hides then [] else es := by
  have hreference (e : Event) (he : e.isComplaint = false) :
      ((apart content {} out).2.report e).complaints = out.complaints ++ es := by
    rw [complaints_report, complaints_apart hc, List.filter_cons_of_neg (by rw [he]; nofun),
      List.filter_nil, List.append_nil]
  cases rule with
  | note =>
    simp only [render, hides, Bool.false_eq_true, if_false]
    split
    · rw [hc, complaints_write]
    · rename_i hkind
      exact absurd hkind (hnote rfl)
  | reference =>
    simp only [render, renderReference, hides, Bool.false_eq_true, if_false]
    split
    · rw [complaints_write, complaints_apart hc]
    · split
      · split
        · rw [complaints_write, complaints_apart hc]
        · rw [complaints_write, hreference _ rfl]
      · rw [complaints_write, hreference _ rfl]
  | para =>
    simp only [render, hides, Bool.false_eq_true, if_false, hc]
    rw [complaints_ite _ _ (by rw [complaints_write, complaints_write])]
  | list | subsection =>
    simp only [render, hides, Bool.false_eq_true, if_false, hc]
    rw [complaints_ite _ _ (complaints_write _)]
  | item =>
    simp only [render, hides, Bool.false_eq_true, if_false, hc, complaints_write]
    rw [complaints_ite _ _ (complaints_write _)]
  | link =>
    simp only [render, hides, Bool.false_eq_true, if_false]
    split <;> simp only [complaints_write, complaints_apart hc]
  | _ =>
    simp only [render, hides, Bool.false_eq_true, if_false, if_true, List.append_nil,
      complaints_write, complaints_stopUnless, complaints_dropSpace, complaints_apart hc, hc]

end

end Rule

def complaintsOf (nodes : List Node) : Log := (nodes.filter Node.isUnsupported).map Node.complaint

theorem complaintsOf_append (ms ns : List Node) :
    complaintsOf (ms ++ ns) = complaintsOf ms ++ complaintsOf ns := by
  rw [complaintsOf, List.filter_append, List.map_append, complaintsOf, complaintsOf]

theorem complaintsOf_singleton (n : Node) :
    complaintsOf [n] = if n.isUnsupported then [n.complaint] else [] := by
  rw [complaintsOf, List.filter_cons, List.filter_nil]
  split <;> rfl

theorem complaintsOf_text (s : String) : complaintsOf [.text s] = [] := rfl

mutual

/-- Every unsupported element whose content could show is reported once, in order. -/
theorem Node.complaints_render (cx : Context) (index : Nat) : ∀ (n : Node) (out : Output),
    (n.render cx index out).complaints = out.complaints ++ complaintsOf (n.outside hidingTags)
  | .text s, out => by
    rw [Node.render, complaints_write, Node.outside, complaintsOf_text, List.append_nil]
  | .element tag attrs children, out => by
    have hc (cx : Context) (out : Output) : (renderAll cx 0 children out).complaints =
        out.complaints ++ complaintsOf (Node.outsideAll hidingTags children) :=
      complaints_renderAll cx 0 children out
    rw [Node.outside, ← List.singleton_append, complaintsOf_append]
    by_cases hunsupported : (Node.element tag attrs children).isUnsupported = true
    · rw [Node.render_unsupported hunsupported, hc, complaints_report, List.append_assoc,
        if_neg (Node.not_mem_hidingTags hunsupported), complaintsOf_singleton,
        if_pos hunsupported, List.filter_cons_of_pos (Node.isComplaint_complaint _)]
      rfl
    · obtain ⟨rule, hrule, hnote⟩ := Node.exists_rule_of_supported hunsupported
      have hrender := Rule.complaints_render hc hnote cx index out
      rw [Node.render, hrule]
      rw [complaintsOf_singleton, if_neg hunsupported, List.nil_append]
      simp only [hrender, Rule.hides_iff hrule, decide_eq_true_eq]
      split <;> rfl

theorem complaints_renderAll (cx : Context) (index : Nat) : ∀ (ns : List Node) (out : Output),
    (renderAll cx index ns out).complaints =
      out.complaints ++ complaintsOf (Node.outsideAll hidingTags ns)
  | [], out => by
    rw [renderAll, Node.outsideAll]
    exact (List.append_nil _).symm
  | n :: ns, out => by
    rw [renderAll, Node.outsideAll, complaintsOf_append, ← List.append_assoc]
    split
    · rw [complaints_renderAll cx (index + 1) ns, n.complaints_render cx index out]
    · rename_i hvisible
      obtain ⟨s, rfl, -⟩ := Node.exists_text_of_invisible (eq_false_of_ne_true hvisible)
      rw [complaints_renderAll cx index ns, Node.outside, complaintsOf_text, List.append_nil]

end

namespace Description

def highlighted (as : List (String × String) → List (String × String)) :
    Description → Description
  | node n => node (n.highlighted as)
  | nodes ns => nodes (Node.highlightedAll as ns)

def outside (tags : List String) (d : Description) : List Node := Node.outsideAll tags d.roots

end Description

end DoxPages
