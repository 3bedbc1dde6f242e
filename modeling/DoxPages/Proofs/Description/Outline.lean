import DoxPages.Proofs.Description.Overflow
import DoxPages.Proofs.Text.Split
import DoxPages.Proofs.Text.Strip

/-!
# Nested lists

An outline is a list of items, an item is one or more paragraphs, and a paragraph is a phrase
with more lists behind it. `Lists.lines`, `Items.lines` and `Paras.lines` lay an outline out
in lines: the first line of an item has its bullet behind the widths of the bullets around
it, its further paragraphs stand below their item's text, with an empty line in front.
`toMarkdown_outline` says that this is how outlines are rendered, at every depth and to
the end.
-/

namespace DoxPages

open Text

namespace Outline

/-- A text on one line, without blanks at its ends. -/
structure Phrase where
  text : String
  ne_empty : text ≠ ""
  trimmed : strip text.toList = text.toList
  oneLine : '\n' ∉ text.toList

abbrev Attrs := List (String × String)

mutual

/-- Lists one behind the other, possibly none. -/
inductive Lists where
  | nil
  | cons (numbered : Bool) (attrs : Attrs) (items : Items) (rest : Lists)

inductive Items where
  | last (attrs : Attrs) (paras : Paras)
  | cons (attrs : Attrs) (paras : Paras) (rest : Items)

inductive Paras where
  | last (attrs : Attrs) (phrase : Phrase) (lists : Lists)
  | cons (attrs : Attrs) (phrase : Phrase) (lists : Lists) (rest : Paras)

end

/-! ## As markup -/

def listTag (numbered : Bool) : String := if numbered then "orderedlist" else "itemizedlist"

mutual

def Lists.nodes : Lists → List Node
  | .nil => []
  | .cons numbered attrs items rest =>
    .element (listTag numbered) attrs items.nodes :: rest.nodes

def Items.nodes : Items → List Node
  | .last attrs paras => [.element "listitem" attrs paras.nodes]
  | .cons attrs paras rest => .element "listitem" attrs paras.nodes :: rest.nodes

def Paras.nodes : Paras → List Node
  | .last attrs phrase lists => [.element "para" attrs (.text phrase.text :: lists.nodes)]
  | .cons attrs phrase lists rest =>
    .element "para" attrs (.text phrase.text :: lists.nodes) :: rest.nodes

end

/-! ## As lines -/

theorem toList_spaces (n : Nat) : (spaces n).toList = List.replicate n ' ' :=
  String.toList_ofList

def bullet (numbered : Bool) : String := if numbered then "1. " else "* "

/-- The width of the bullets of the items around, told by whether their lists are numbered. -/
def indent : List Bool → Nat
  | [] => 0
  | numbered :: around => indent around + (bullet numbered).length

mutual

def Lists.lines (around : List Bool) : Lists → List String
  | .nil => []
  | .cons numbered _ items rest => items.lines numbered around ++ rest.lines around

def Items.lines (numbered : Bool) (around : List Bool) : Items → List String
  | .last _ paras =>
    paras.lines (numbered :: around) (spaces (indent around) ++ bullet numbered)
  | .cons _ paras rest =>
    paras.lines (numbered :: around) (spaces (indent around) ++ bullet numbered) ++
      rest.lines numbered around

/-- The paragraphs of an item; `lead` stands before the phrase of the first. -/
def Paras.lines (around : List Bool) (lead : String) : Paras → List String
  | .last _ phrase lists => (lead ++ phrase.text) :: lists.lines around
  | .cons _ phrase lists rest =>
    (lead ++ phrase.text) :: lists.lines around ++
      "" :: rest.lines around (spaces (indent around))

end

/-! ### Lines behind others -/

/-- The lines, each behind a line feed. -/
def broken (ls : List String) : String := String.join (ls.map ("\n" ++ ·))

@[simp] theorem broken_nil : broken [] = "" := rfl

theorem broken_cons (l : String) (ls : List String) :
    broken (l :: ls) = "\n" ++ l ++ broken ls := by
  simp [broken]

theorem broken_append (ls ms : List String) : broken (ls ++ ms) = broken ls ++ broken ms := by
  simp [broken]

theorem joinWith_cons (l : String) (ls : List String) :
    joinWith "\n" (l :: ls) = l ++ broken ls := by
  induction ls generalizing l with
  | nil => simp [joinWith]
  | cons m ms ih =>
    have h := ih m
    simp only [joinWith] at h ⊢
    rw [List.intersperse_cons_cons, String.join_cons, String.join_cons, h, broken_cons]
    simp [String.append_assoc]

theorem broken_eq {ls : List String} (h : ls ≠ []) : broken ls = "\n" ++ joinWith "\n" ls := by
  cases ls with
  | nil => exact absurd rfl h
  | cons l ls => rw [joinWith_cons, broken_cons, String.append_assoc]

theorem joinWith_append {ls : List String} (h : ls ≠ []) (ms : List String) :
    joinWith "\n" (ls ++ ms) = joinWith "\n" ls ++ broken ms := by
  cases ls with
  | nil => exact absurd rfl h
  | cons l ls => rw [List.cons_append, joinWith_cons, joinWith_cons, broken_append,
      String.append_assoc]

theorem Paras.lines_ne_nil (around : List Bool) (lead : String) (ps : Paras) :
    ps.lines around lead ≠ [] := by
  cases ps <;> simp [Paras.lines]

theorem Items.lines_ne_nil (numbered : Bool) (around : List Bool) (is : Items) :
    is.lines numbered around ≠ [] := by
  cases is <;> simp [Items.lines, Paras.lines_ne_nil]

/-- What leads the first paragraph leads the lines. -/
theorem Paras.joinWith_lines (around : List Bool) (lead : String) (ps : Paras) :
    joinWith "\n" (ps.lines around lead) = lead ++ joinWith "\n" (ps.lines around "") := by
  cases ps <;> simp [Paras.lines, joinWith_cons, String.append_assoc]

/-! ## Rendering -/

theorem Phrase.not_allBlank (p : Phrase) : allBlank p.text.toList = false := by
  rw [← Bool.not_eq_true]
  intro hblank
  have hnil := (strip_of_allBlank hblank).symm.trans p.trimmed
  exact p.ne_empty (String.toList_eq_nil_iff.1 hnil.symm)

theorem render_list (numbered : Bool) (attrs : Attrs) (cs : List Node) (cx : Context) (index : Nat)
    (out : Output) :
    (Node.element (listTag numbered) attrs cs).render cx index out =
      renderAll { cx with frame := .list numbered } 0 cs
        (if index = 0 then out else out.write "\n") := by
  have hrule : Rule.ofTag? (listTag numbered) = some (.list numbered) := by
    cases numbered <;> decide
  rw [Node.render, hrule]
  rfl

theorem render_item {numbered : Bool} (attrs : Attrs) (cs : List Node) {cx : Context}
    (hframe : cx.frame = .list numbered) (index : Nat) (out : Output) :
    (Node.element "listitem" attrs cs).render cx index out =
      renderAll { cx with indent := cx.indent + (bullet numbered).length } 0 cs
        (((if index = 0 then out else out.write "\n").write (spaces cx.indent)).write
          (bullet numbered)) := by
  have hrule : Rule.ofTag? "listitem" = some .item := by decide
  rw [Node.render, hrule]
  simp only [Rule.render, hframe]
  cases numbered <;> rfl

theorem text_renderAll_phrase (p : Phrase) (ns : List Node) {cx : Context}
    (hcx : cx.activeResolver = none) (out : Output) :
    renderAll cx 0 (.text p.text :: ns) out = renderAll cx 1 ns (out.write p.text) := by
  have hblank := p.not_allBlank
  rw [renderAll, if_pos (by simp [Node.isVisible, hblank]), Node.render, Node.textFragment, hblank,
    hcx]
  rfl

theorem indent_cons (numbered : Bool) (around : List Bool) :
    indent (numbered :: around) = indent around + (bullet numbered).length := rfl

theorem text_ite_write (out : Output) (c : Prop) [Decidable c] (s : String) :
    (if c then out else out.write s).text = out.text ++ if c then "" else s := by
  split
  · exact String.append_empty.symm
  · exact Output.text_write s out

section
variable {cx : Context} {around : List Bool} (hindent : cx.indent = indent around) (attrs : Attrs)
  (index : Nat) (out : Output)
include hindent

theorem text_render_item {numbered : Bool} (hframe : cx.frame = .list numbered) {paras : Paras}
    (hparas : ∀ out,
      (renderAll { cx with indent := cx.indent + (bullet numbered).length } 0 paras.nodes
          out).text =
        out.text ++ joinWith "\n" (paras.lines (numbered :: around) "")) :
    ((Node.element "listitem" attrs paras.nodes).render cx index out).text =
      out.text ++ (if index = 0 then "" else "\n") ++
        joinWith "\n"
          (paras.lines (numbered :: around) (spaces (indent around) ++ bullet numbered)) := by
  rw [render_item attrs paras.nodes hframe, hparas, Output.text_write, Output.text_write,
    text_ite_write, hindent, paras.joinWith_lines _ (spaces _ ++ bullet _)]
  simp only [String.append_assoc]

theorem text_render_para (hcx : cx.activeResolver = none) (phrase : Phrase) {lists : Lists}
    (hlists : ∀ out,
      (renderAll cx 1 lists.nodes out).text = out.text ++ broken (lists.lines around)) :
    ((Node.element "para" attrs (.text phrase.text :: lists.nodes)).render cx index out).text =
      out.text ++ (if index = 0 then "" else "\n\n" ++ spaces (indent around)) ++
        (phrase.text ++ broken (lists.lines around)) := by
  rw [Node.render_para, text_renderAll_phrase phrase _ hcx, hlists, Output.text_write]
  split
  · rw [String.append_empty, String.append_assoc]
  · rw [Output.text_write, Output.text_write, hindent]
    simp only [String.append_assoc]

end

mutual

theorem Lists.text_renderAll (cx : Context) (hcx : cx.activeResolver = none) {around : List Bool}
    (hindent : cx.indent = indent around) {index : Nat} (hindex : index ≠ 0) :
    ∀ (ls : Lists) (out : Output),
      (renderAll cx index ls.nodes out).text = out.text ++ broken (ls.lines around)
  | .nil, out => by
    rw [Lists.nodes, renderAll, Lists.lines, broken_nil, String.append_empty]
  | .cons numbered attrs items rest, out => by
    have hitems := items.text_renderAll { cx with frame := .list numbered } hcx rfl hindent 0
      (out.write "\n")
    rw [Lists.nodes, renderAll_cons_of_visible rfl,
      rest.text_renderAll cx hcx hindent (Nat.succ_ne_zero index), render_list, if_neg hindex,
      hitems, Output.text_write, Lists.lines, broken_append,
      broken_eq (items.lines_ne_nil numbered around), if_pos rfl, String.append_empty]
    simp only [String.append_assoc]

theorem Items.text_renderAll (cx : Context) (hcx : cx.activeResolver = none) {numbered : Bool}
    (hframe : cx.frame = .list numbered) {around : List Bool}
    (hindent : cx.indent = indent around) (index : Nat) : ∀ (is : Items) (out : Output),
      (renderAll cx index is.nodes out).text =
        out.text ++ (if index = 0 then "" else "\n") ++ joinWith "\n" (is.lines numbered around)
  | .last attrs paras, out => by
    have hparas (out : Output) := paras.text_renderAll
      { cx with indent := cx.indent + (bullet numbered).length } hcx
      (by rw [hindent, indent_cons]) 0 out
    simp only [if_true, String.append_empty] at hparas
    rw [Items.nodes, renderAll_cons_of_visible rfl, renderAll, Items.lines,
      text_render_item hindent attrs index out hframe hparas]
  | .cons attrs paras rest, out => by
    have hparas (out : Output) := paras.text_renderAll
      { cx with indent := cx.indent + (bullet numbered).length } hcx
      (by rw [hindent, indent_cons]) 0 out
    simp only [if_true, String.append_empty] at hparas
    rw [Items.nodes, renderAll_cons_of_visible rfl,
      rest.text_renderAll cx hcx hframe hindent (index + 1),
      text_render_item hindent attrs index out hframe hparas, Items.lines,
      joinWith_append (paras.lines_ne_nil _ _), broken_eq (rest.lines_ne_nil _ _)]
    simp only [String.append_assoc, Nat.succ_ne_zero, if_false]

theorem Paras.text_renderAll (cx : Context) (hcx : cx.activeResolver = none) {around : List Bool}
    (hindent : cx.indent = indent around) (index : Nat) : ∀ (ps : Paras) (out : Output),
      (renderAll cx index ps.nodes out).text =
        out.text ++ (if index = 0 then "" else "\n\n" ++ spaces (indent around)) ++
          joinWith "\n" (ps.lines around "")
  | .last attrs phrase lists, out => by
    rw [Paras.nodes, renderAll_cons_of_visible rfl, renderAll, Paras.lines, joinWith_cons,
      String.empty_append, text_render_para hindent attrs index out hcx phrase
        (lists.text_renderAll cx hcx hindent (Nat.succ_ne_zero 0))]
  | .cons attrs phrase lists rest, out => by
    rw [Paras.nodes, renderAll_cons_of_visible rfl, rest.text_renderAll cx hcx hindent (index + 1),
      text_render_para hindent attrs index out hcx phrase
        (lists.text_renderAll cx hcx hindent (Nat.succ_ne_zero 0)), Paras.lines, List.cons_append,
      joinWith_cons, String.empty_append, broken_append, broken_cons,
      broken_eq (rest.lines_ne_nil around _), rest.joinWith_lines _ (spaces _)]
    have hbreak : "\n\n" = "\n" ++ "\n" := rfl
    simp only [String.append_assoc, Nat.succ_ne_zero, if_false, String.empty_append, hbreak]

end

/-! ## What the lines hold -/

theorem lineFeed_not_mem_spaces (n : Nat) : '\n' ∉ (spaces n).toList := by
  rw [toList_spaces]
  intro hmem
  cases (List.mem_replicate.1 hmem).2

theorem lineFeed_not_mem_lead (around : List Bool) (numbered : Bool) :
    '\n' ∉ (spaces (indent around) ++ bullet numbered).toList := by
  rw [String.toList_append, List.mem_append, not_or]
  exact ⟨lineFeed_not_mem_spaces _, by cases numbered <;> decide⟩

theorem Phrase.lineFeed_not_mem_append (p : Phrase) {lead : String} (hlead : '\n' ∉ lead.toList) :
    '\n' ∉ (lead ++ p.text).toList := by
  rw [String.toList_append, List.mem_append, not_or]
  exact ⟨hlead, p.oneLine⟩

mutual

theorem Lists.lineFeed_not_mem (around : List Bool) : ∀ (ls : Lists),
    ∀ l ∈ ls.lines around, '\n' ∉ l.toList
  | .nil => List.forall_mem_nil _
  | .cons numbered _ items rest => by
    rw [Lists.lines, List.forall_mem_append]
    exact ⟨items.lineFeed_not_mem numbered around, rest.lineFeed_not_mem around⟩

theorem Items.lineFeed_not_mem (numbered : Bool) (around : List Bool) : ∀ (is : Items),
    ∀ l ∈ is.lines numbered around, '\n' ∉ l.toList
  | .last _ paras => paras.lineFeed_not_mem _ (lineFeed_not_mem_lead around numbered)
  | .cons _ paras rest => by
    rw [Items.lines, List.forall_mem_append]
    exact ⟨paras.lineFeed_not_mem _ (lineFeed_not_mem_lead around numbered),
      rest.lineFeed_not_mem numbered around⟩

theorem Paras.lineFeed_not_mem (around : List Bool) {lead : String} (hlead : '\n' ∉ lead.toList) :
    ∀ (ps : Paras), ∀ l ∈ ps.lines around lead, '\n' ∉ l.toList
  | .last _ phrase lists =>
    List.forall_mem_cons.2 ⟨phrase.lineFeed_not_mem_append hlead, lists.lineFeed_not_mem around⟩
  | .cons _ phrase lists rest => by
    rw [Paras.lines, List.cons_append, List.forall_mem_cons, List.forall_mem_append,
      List.forall_mem_cons]
    exact ⟨phrase.lineFeed_not_mem_append hlead, lists.lineFeed_not_mem around, nofun,
      rest.lineFeed_not_mem around (lineFeed_not_mem_spaces _)⟩

end

def EndsInInk (s : String) : Prop := ∃ c, s.toList.getLast? = some c ∧ isBlank c = false

theorem EndsInInk.append {t : String} (h : EndsInInk t) (s : String) : EndsInInk (s ++ t) := by
  obtain ⟨c, hlast, hc⟩ := h
  refine ⟨c, ?_, hc⟩
  rw [String.toList_append, List.getLast?_append, hlast]
  rfl

theorem Phrase.endsInInk (p : Phrase) : EndsInInk p.text := by
  cases hlast : p.text.toList.getLast? with
  | none => exact absurd (String.toList_eq_nil_iff.1 (List.getLast?_eq_none_iff.1 hlast)) p.ne_empty
  | some c =>
    refine ⟨c, hlast, ?_⟩
    rw [← p.trimmed] at hlast
    exact getLast?_strip hlast

mutual

theorem Lists.endsInInk (around : List Bool) : ∀ (ls : Lists) {s : String}, EndsInInk s →
    EndsInInk (s ++ broken (ls.lines around))
  | .nil, s, h => by
    rw [Lists.lines, broken_nil, String.append_empty]
    exact h
  | .cons numbered _ items rest, s, h => by
    rw [Lists.lines, broken_append, ← String.append_assoc,
      broken_eq (items.lines_ne_nil numbered around), ← String.append_assoc]
    exact rest.endsInInk around ((items.endsInInk numbered around).append _)

theorem Items.endsInInk (numbered : Bool) (around : List Bool) : ∀ (is : Items),
    EndsInInk (joinWith "\n" (is.lines numbered around))
  | .last _ paras => paras.endsInInk _ _
  | .cons _ paras rest => by
    rw [Items.lines, joinWith_append (paras.lines_ne_nil _ _), broken_eq (rest.lines_ne_nil _ _)]
    exact ((rest.endsInInk numbered around).append _).append _

theorem Paras.endsInInk (around : List Bool) (lead : String) : ∀ (ps : Paras),
    EndsInInk (joinWith "\n" (ps.lines around lead))
  | .last _ phrase lists => by
    rw [Paras.lines, joinWith_cons]
    exact lists.endsInInk around (phrase.endsInInk.append lead)
  | .cons _ phrase lists rest => by
    rw [Paras.lines, List.cons_append, joinWith_cons, broken_append, broken_cons,
      broken_eq (rest.lines_ne_nil around _)]
    exact ((((rest.endsInInk around _).append _).append _).append _).append _

end

theorem Items.joinWith_lines (numbered : Bool) (around : List Bool) (is : Items) :
    ∃ s, joinWith "\n" (is.lines numbered around) =
      spaces (indent around) ++ bullet numbered ++ s := by
  cases is with
  | last _ paras => exact ⟨_, paras.joinWith_lines ..⟩
  | cons _ paras rest =>
    rw [Items.lines, joinWith_append (paras.lines_ne_nil _ _), paras.joinWith_lines _ (_ ++ _),
      String.append_assoc]
    exact ⟨_, rfl⟩

/-- Stripping leaves the lines of a list as they are. -/
theorem Items.strip_lines (numbered : Bool) (is : Items) :
    onChars strip (joinWith "\n" (is.lines numbered [])) =
      joinWith "\n" (is.lines numbered []) := by
  obtain ⟨s, hs⟩ := is.joinWith_lines numbered []
  obtain ⟨c, rest, hbullet, hc⟩ : ∃ c rest, (bullet numbered).toList = c :: rest ∧
      isBlank c = false := by
    cases numbered
    · exact ⟨'*', [' '], by decide, by decide⟩
    · exact ⟨'1', ['.', ' '], by decide, by decide⟩
  obtain ⟨d, hlast, hd⟩ := is.endsInInk numbered []
  have hchars : (joinWith "\n" (is.lines numbered [])).toList = c :: (rest ++ s.toList) := by
    rw [hs, String.toList_append, String.toList_append, hbullet]
    rfl
  have hstrip := strip_append_cons hc [] (rest ++ s.toList)
  rw [onChars, ← String.toList_inj, String.toList_ofList, hchars]
  rw [List.nil_append] at hstrip
  rw [hstrip, ← hchars]
  refine stripRight_eq_self fun e he => ?_
  rw [hlast] at he
  exact Option.some.inj he ▸ hd

/-! ### No headings -/

theorem not_overflows_listTag (numbered : Bool) (attrs : Attrs) {ns : List Node}
    (h : (Node.outsideAll hidingTags ns).any Node.isTooDeep = false) :
    (Node.element (listTag numbered) attrs ns).overflows = false := by
  cases numbered <;> exact Node.not_overflows_of_tag_ne (by decide) attrs h

mutual

theorem Lists.not_overflows : ∀ ls : Lists,
    (Node.outsideAll hidingTags ls.nodes).any Node.isTooDeep = false
  | .nil => rfl
  | .cons numbered attrs items rest => by
    rw [Lists.nodes, Node.any_outsideAll_cons, not_overflows_listTag _ _ items.not_overflows,
      rest.not_overflows, Bool.or_false]

theorem Items.not_overflows : ∀ is : Items,
    (Node.outsideAll hidingTags is.nodes).any Node.isTooDeep = false
  | .last attrs paras => by
    rw [Items.nodes, Node.any_outsideAll_cons,
      Node.not_overflows_of_tag_ne (by decide) attrs paras.not_overflows]
    rfl
  | .cons attrs paras rest => by
    rw [Items.nodes, Node.any_outsideAll_cons,
      Node.not_overflows_of_tag_ne (by decide) attrs paras.not_overflows, rest.not_overflows,
      Bool.or_false]

theorem Paras.not_overflows : ∀ ps : Paras,
    (Node.outsideAll hidingTags ps.nodes).any Node.isTooDeep = false
  | .last attrs phrase lists => by
    have hbelow : (Node.outsideAll hidingTags (.text phrase.text :: lists.nodes)).any
        Node.isTooDeep = false := lists.not_overflows
    rw [Paras.nodes, Node.any_outsideAll_cons,
      Node.not_overflows_of_tag_ne (by decide) attrs hbelow]
    rfl
  | .cons attrs phrase lists rest => by
    have hbelow : (Node.outsideAll hidingTags (.text phrase.text :: lists.nodes)).any
        Node.isTooDeep = false := lists.not_overflows
    rw [Paras.nodes, Node.any_outsideAll_cons,
      Node.not_overflows_of_tag_ne (by decide) attrs hbelow, rest.not_overflows, Bool.or_false]

end

/-! ## A paragraph with a list -/

def paragraph (paraAttrs : Attrs) (numbered : Bool) (attrs : Attrs) (items : Items) : Node :=
  .element "para" paraAttrs [.element (listTag numbered) attrs items.nodes]

/-- A list is laid out in lines at every depth, and nothing breaks that off. -/
theorem toMarkdown_outline (paraAttrs : Attrs) (numbered : Bool) (attrs : Attrs) (items : Items) :
    ((paragraph paraAttrs numbered attrs items).toMarkdown none).stopped = none ∧
      ((paragraph paraAttrs numbered attrs items).toMarkdown none).value =
        joinWith "\n" (items.lines numbered []) ∧
      splitChar '\n' ((paragraph paraAttrs numbered attrs items).toMarkdown none).value.toList =
        (items.lines numbered []).map String.toList := by
  have hindent : ({ frame := .list numbered } : Context).indent = indent [] := rfl
  have htext := items.text_renderAll { frame := .list numbered } rfl rfl hindent 0 {}
  rw [if_pos rfl, String.append_empty] at htext
  have hvalue : ((paragraph paraAttrs numbered attrs items).toMarkdown none).value =
      joinWith "\n" (items.lines numbered []) := by
    rw [Node.toMarkdown, Description.toMarkdown, Description.render, paragraph, Node.render_para,
      renderAll_cons_of_visible rfl, render_list, renderAll, if_pos rfl, if_pos rfl]
    simp only [htext]
    exact items.strip_lines numbered
  refine ⟨?_, hvalue, ?_⟩
  · have hlist := not_overflows_listTag numbered attrs items.not_overflows
    rw [Node.stopped_toMarkdown_iff, paragraph]
    refine Node.not_overflows_of_tag_ne (by decide) paraAttrs ?_
    rw [Node.any_outsideAll_cons, hlist]
    rfl
  · rw [hvalue, splitChar_joinWith_of_not_mem rfl (items.lines_ne_nil numbered [])
      (items.lineFeed_not_mem numbered [])]

/-- Two items; below the first a numbered list, and a second paragraph behind it. -/
def palette : Items :=
  .cons []
    (.cons [] ⟨"Colors", by decide, by decide, by decide⟩
      (.cons true []
        (.cons [] (.last [] ⟨"Red", by decide, by decide, by decide⟩ .nil)
          (.last [] (.last [] ⟨"Dark green", by decide, by decide, by decide⟩ .nil)))
        .nil)
      (.last [] ⟨"and no others", by decide, by decide, by decide⟩ .nil))
    (.last [] (.last [] ⟨"Ink", by decide, by decide, by decide⟩ .nil))

example : palette.lines false [] =
      ["* Colors", "  1. Red", "  1. Dark green", "", "  and no others", "* Ink"] ∧
    ((paragraph [] false [] palette).toMarkdown none).value =
      "* Colors\n  1. Red\n  1. Dark green\n\n  and no others\n* Ink" := by
  decide +kernel

end Outline

end DoxPages
