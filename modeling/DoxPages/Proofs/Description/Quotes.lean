import DoxPages.Proofs.Description.Sites
import DoxPages.Proofs.Description.Suppression
import DoxPages.Proofs.Text.Split
import Mathlib.Data.List.Chain

/-!
# Notes as block quotes

A note opens with `> ` in place, and its paragraphs are written as anywhere else. So it is a
block quote where the marker happens to start a line, and it stays one as long as its further
paragraphs are quotes of their own: `Description.toMarkdown_quote`.
-/

namespace DoxPages

open Text Output

/-- A text that ends a longer one starts a line of it: its lines are the last ones. -/
def StartsLine (whole text : List Char) : Prop :=
  ∃ above, splitChar '\n' whole = above ++ splitChar '\n' text

/-- Every line behind an empty line is empty as well or opens with the marker of a quote. -/
def StaysQuoted (cs : List Char) : Prop :=
  (splitChar '\n' cs).IsChain fun line next => line = [] → next = [] ∨ next.head? = some '>'

instance (cs : List Char) : Decidable (StaysQuoted cs) :=
  inferInstanceAs (Decidable (List.IsChain _ _))

theorem startsLine_dropWhile_append (cs ds : List Char) :
    StartsLine (cs.dropWhile isBlank ++ ds) ds ↔
      allBlank cs = true ∨ cs.getLast? = some '\n' := by
  rw [StartsLine, exists_splitChar_append_iff]
  by_cases hblank : allBlank cs = true
  · have hnil : cs.dropWhile isBlank = [] := List.dropWhile_eq_nil_iff.2 (List.all_eq_true.1 hblank)
    exact iff_of_true (.inl hnil) (.inl hblank)
  · have hne : cs.dropWhile isBlank ≠ [] := fun hnil =>
      hblank (List.all_eq_true.2 (List.dropWhile_eq_nil_iff.1 hnil))
    obtain ⟨blanks, hcs⟩ := List.dropWhile_suffix isBlank (l := cs)
    rw [or_iff_right hne, or_iff_right hblank]
    conv => rhs; rw [← hcs, List.getLast?_append_of_ne_nil _ hne]

/-- Whether a text of two parts with an empty line between stays quoted is up to each part. -/
theorem staysQuoted_append (cs ds : List Char) :
    StaysQuoted (cs ++ '\n' :: '\n' :: ds) ↔ StaysQuoted cs ∧ StaysQuoted ('\n' :: ds) := by
  have hds : splitChar '\n' ('\n' :: ds) = [] :: splitChar '\n' ds := by
    rw [splitChar, if_pos rfl]
  rw [StaysQuoted, StaysQuoted, StaysQuoted, splitChar_append_cons, List.isChain_append, hds]
  refine and_congr_right fun _ => and_iff_left ?_
  rintro line - next hnext -
  exact .inl (Option.some.inj hnext).symm

theorem staysQuoted_flatMap (cs : List Char) (parts : List (List Char)) :
    StaysQuoted (cs ++ parts.flatMap ('\n' :: '\n' :: ·)) ↔
      StaysQuoted cs ∧ ∀ part ∈ parts, StaysQuoted ('\n' :: part) := by
  induction parts generalizing cs with
  | nil => simp
  | cons part parts ih =>
    rw [List.flatMap_cons, List.cons_append, List.cons_append, staysQuoted_append,
      ← List.cons_append, ih, List.forall_mem_cons]

namespace Node

def isQuote (n : Node) : Bool :=
  n.tag == "simplesect" && ["note", "warning", "attention"].contains (n.attr "kind")

/-- What a node shows at a spot, behind nothing. -/
def shown (n : Node) (s : Spot) : List Char := (n.render s.cx s.index {}).text.toList

theorem isVisible_of_isQuote {n : Node} (h : n.isQuote = true) : n.isVisible = true := by
  cases n with
  | text s => simp [isQuote, tag] at h
  | element tag attrs children => rfl

theorem exists_opening_of_isQuote {n : Node} (h : n.isQuote = true) :
    ∃ opening : String, noteOpening? (n.attr "kind") = some opening ∧
      opening.toList.head? = some '>' ∧
      ∀ cx index out, (n.render cx index out).text =
        out.text ++ opening ++ (renderAll cx 0 n.children {}).text := by
  rw [isQuote, Bool.and_eq_true, beq_iff_eq, List.contains_iff_mem] at h
  obtain ⟨htag, hkind⟩ := h
  have hopenings : ∀ kind ∈ ["note", "warning", "attention"], ∃ opening : String,
      noteOpening? kind = some opening ∧ opening.toList.head? = some '>' ∧ opening ≠ " " := by
    intro kind hmem
    simp only [List.mem_cons, List.not_mem_nil, or_false] at hmem
    rcases hmem with rfl | rfl | rfl
    · exact ⟨"> **Note**: ", by decide⟩
    · exact ⟨"> **Warning**: ", by decide⟩
    · exact ⟨"> ", by decide⟩
  obtain ⟨opening, hopening, hhead, hspace⟩ := hopenings _ hkind
  refine ⟨opening, hopening, hhead, fun cx index out => ?_⟩
  have hne : opening ≠ "" := by
    rintro rfl
    cases hhead
  have hfirm : Firm (out.write opening).fragments := firm_write hne hspace out
  have hrender : n.render cx index out = renderAll cx 0 n.children (out.write opening) := by
    cases n with
    | text s => exact absurd (show "" = "simplesect" from htag) (by decide)
    | element tag attrs children =>
      obtain rfl : tag = "simplesect" := htag
      rw [render, Rule.ofTag?_simplesect]
      simp only [Rule.render, hopening]
      rfl
  rw [hrender, text_renderAll_of_firm hfirm, text_write]

end Node

/-! ## Paragraphs -/

def paragraphs (cx : Context) (ns : List Node) : List (List Char) :=
  (ns.filter Node.isVisible).map fun n => (renderAll cx 0 n.children {}).text.toList

theorem paragraphs_cons (cx : Context) (n : Node) (ns : List Node) :
    paragraphs cx (n :: ns) =
      if n.isVisible then (renderAll cx 0 n.children {}).text.toList :: paragraphs cx ns
      else paragraphs cx ns := by
  rw [paragraphs, List.filter_cons]
  split <;> rfl

section
variable {cx : Context} (hindent : cx.indent = 0)
include hindent

theorem text_render_laterPara {n : Node} (hn : n.tag = "para") {index : Nat} (hindex : index ≠ 0)
    (out : Output) :
    (n.render cx index out).text.toList =
      out.text.toList ++ '\n' :: '\n' :: (renderAll cx 0 n.children {}).text.toList := by
  cases n with
  | text s => exact absurd (show "" = "para" from hn) (by decide)
  | element tag attrs children =>
    obtain rfl : tag = "para" := hn
    have hbreak : (out.write "\n\n").fragments = "\n\n" :: out.fragments := rfl
    have hfirm : Firm (out.write "\n\n").fragments := by
      rw [hbreak, Firm, List.head?_cons]
      decide
    rw [Node.render_para, if_neg hindex, hindent, show spaces 0 = "" from rfl, write_empty,
      text_renderAll_of_firm hfirm, text_write, String.append_assoc, String.toList_append,
      String.toList_append]
    rfl

theorem text_renderAll_laterParas {ns : List Node}
    (hparas : ∀ n ∈ ns, n.isVisible = true → n.tag = "para") {index : Nat} (hindex : index ≠ 0)
    (out : Output) :
    (renderAll cx index ns out).text.toList =
      out.text.toList ++ (paragraphs cx ns).flatMap ('\n' :: '\n' :: ·) := by
  induction ns generalizing index out with
  | nil =>
    rw [renderAll]
    exact (List.append_nil _).symm
  | cons n ns ih =>
    rw [List.forall_mem_cons] at hparas
    rw [renderAll, paragraphs_cons]
    split
    · rename_i hvisible
      rw [List.flatMap_cons, ih hparas.2 (Nat.succ_ne_zero index),
        text_render_laterPara hindent (hparas.1 hvisible) hindex, List.append_assoc]
    · exact ih hparas.2 hindex out

/-- Paragraphs are written one behind the other, with an empty line before each further one. -/
theorem text_renderAll_paras {ns : List Node}
    (hparas : ∀ n ∈ ns, n.isVisible = true → n.tag = "para") :
    (renderAll cx 0 ns {}).text.toList =
      (paragraphs cx ns).headD [] ++ (paragraphs cx ns).tail.flatMap ('\n' :: '\n' :: ·) := by
  induction ns with
  | nil => rfl
  | cons n ns ih =>
    rw [List.forall_mem_cons] at hparas
    rw [renderAll, paragraphs_cons]
    split
    · rename_i hvisible
      have hfirst : n.render cx 0 {} = renderAll cx 0 n.children {} := by
        cases n with
        | text s => exact absurd (show "" = "para" from hparas.1 hvisible) (by decide)
        | element tag attrs children =>
          obtain rfl : tag = "para" := hparas.1 hvisible
          rw [Node.render_para, if_pos rfl]
          rfl
      rw [text_renderAll_laterParas hindent hparas.2 (Nat.succ_ne_zero 0), hfirst]
      rfl
    · exact ih hparas.2

end

/-- A quote of paragraphs stays one if its first paragraph does and each other is one itself. -/
theorem Node.staysQuoted_shown {n : Node} {s : Spot} (hindent : s.cx.indent = 0)
    (hparas : ∀ p ∈ n.children, p.isVisible = true → p.tag = "para") {opening : String}
    (hshown : n.shown s = opening.toList ++ (renderAll s.cx 0 n.children {}).text.toList) :
    StaysQuoted (n.shown s) ↔
      StaysQuoted (opening.toList ++ (paragraphs s.cx n.children).headD []) ∧
        ∀ par ∈ (paragraphs s.cx n.children).tail, StaysQuoted ('\n' :: par) := by
  rw [hshown, text_renderAll_paras hindent hparas, ← List.append_assoc, staysQuoted_flatMap]

namespace Description

/-- The marker of a note starts a line exactly if what was written before it is blank or ended a
line; of the paragraphs in it, each further one has to be a quote by itself. -/
theorem toMarkdown_quote (resolver : Option Resolver) {d : Description} {site : Site} {n : Node}
    (hd : d.roots = site.fill n) (hsite : ∀ tag ∈ site.tags, tag ∉ closedTags)
    (hn : n.isQuote = true) :
    ∃ spot opening behind, site.arrive? { cx := { resolver } } = some spot ∧
      noteOpening? (n.attr "kind") = some opening ∧
      (∃ rest, behind = stripRight (trimRight (· == ' ') (n.shown spot) ++ rest)) ∧
      (d.toMarkdown resolver).value.toList =
        spot.out.text.toList.dropWhile isBlank ++ behind ∧
      (StartsLine (d.toMarkdown resolver).value.toList behind ↔
        allBlank spot.out.text.toList = true ∨ spot.out.text.toList.getLast? = some '\n') ∧
      ((∀ p ∈ n.children, p.isVisible = true → p.tag = "para") →
        (StaysQuoted (n.shown spot) ↔
          StaysQuoted (opening.toList ++ (paragraphs spot.cx n.children).headD []) ∧
            ∀ par ∈ (paragraphs spot.cx n.children).tail, StaysQuoted ('\n' :: par))) := by
  obtain ⟨spot, hspot⟩ := site.exists_arrive hsite { cx := { resolver } }
  obtain ⟨opening, hopening, hhead, htext⟩ := Node.exists_opening_of_isQuote hn
  obtain ⟨after, hafter, hfill⟩ := Site.exists_renderAll_fill hspot
  have hshown : n.shown spot =
      opening.toList ++ (renderAll spot.cx 0 n.children {}).text.toList := by
    rw [Node.shown, htext, String.toList_append, String.toList_append]
    rfl
  -- what is written behind the note leaves all but the spaces at its end
  have hout : d.render { resolver } {} = after (n.render spot.cx spot.index spot.out) := by
    rw [render_eq_renderAll_roots, hd]
    exact hfill n (Node.isVisible_of_isQuote hn)
  obtain ⟨rest, hrest⟩ := hafter.trimRight_prefix (n.render spot.cx spot.index spot.out)
  obtain ⟨tail, htail⟩ : ∃ tail, n.shown spot = '>' :: tail := by
    obtain ⟨tail, htail⟩ := List.head?_eq_some_iff.1 hhead
    exact ⟨_, by rw [hshown, htail, List.cons_append]⟩
  have hwritten : (n.render spot.cx spot.index spot.out).text.toList =
      spot.out.text.toList ++ '>' :: tail := by
    rw [htext, String.append_assoc, String.toList_append, String.toList_append, ← hshown, htail]
  have hvalue : (d.toMarkdown resolver).value.toList = spot.out.text.toList.dropWhile isBlank ++
      stripRight (trimRight (· == ' ') (n.shown spot) ++ rest) := by
    rw [toMarkdown, hout, toList_onChars, ← hrest, hwritten, htail,
      trimRight_append_cons (by decide), trimRight_cons (by decide), List.append_assoc,
      List.cons_append, strip_append_cons (by decide)]
  refine ⟨spot, opening, _, hspot, hopening, ⟨rest, rfl⟩, hvalue, ?_, fun hparas =>
    Node.staysQuoted_shown (Site.indent_of_arrive hspot) hparas hshown⟩
  rw [hvalue]
  exact startsLine_dropWhile_append ..

def behindText : Site := .within [] "para" [] (.here [.text "Mind this."] []) []

def oneTwo : Node := .element "simplesect" [("kind", "note")] [
  .element "para" [] [.text "One"],
  .element "para" [] [.text "Two"]]

theorem toMarkdown_quote_oneTwo :
    (nodes (behindText.fill oneTwo)).roots = behindText.fill oneTwo ∧
      (∀ tag ∈ behindText.tags, tag ∉ closedTags) ∧ oneTwo.isQuote = true ∧
      ∃ spot behind, behindText.arrive? { cx := {} } = some spot ∧
        (∃ rest, behind = stripRight (trimRight (· == ' ') (oneTwo.shown spot) ++ rest)) ∧
        ((nodes (behindText.fill oneTwo)).toMarkdown none).value.toList =
          "Mind this.".toList ++ behind ∧
        ¬StartsLine ((nodes (behindText.fill oneTwo)).toMarkdown none).value.toList behind ∧
        ¬StaysQuoted (oneTwo.shown spot) := by
  have hsite : ∀ tag ∈ behindText.tags, tag ∉ closedTags := by decide
  have hquote : oneTwo.isQuote = true := by decide
  obtain ⟨spot, opening, behind, hspot, hopening, hbehind, hvalue, hline, hquoted⟩ :=
    toMarkdown_quote none (d := nodes (behindText.fill oneTwo)) rfl hsite hquote
  refine ⟨rfl, hsite, hquote, spot, behind, hspot, hbehind, ?_, ?_, ?_⟩
  · obtain rfl := Option.some.inj hspot
    exact hvalue
  · obtain rfl := Option.some.inj hspot
    rw [hline]
    decide
  · obtain rfl := Option.some.inj hspot
    rw [hquoted (by decide)]
    rintro ⟨-, hlater⟩
    have htwo := hlater "Two".toList (by decide)
    revert htwo
    decide

def unquotedTags : List String :=
  codeTags ++ ["table", "row", "entry", "itemizedlist", "orderedlist", "listitem"]

/-- A note behind text starts no line, and a note of two paragraphs is left by the second. -/
theorem not_toMarkdown_quote :
    (¬ ∀ (resolver : Option Resolver) (d : Description) (site : Site) (n : Node),
      d.roots = site.fill n → (∀ tag ∈ site.tags, tag ∉ unquotedTags) → n.isQuote = true →
        ∃ line ∈ splitChar '\n' (d.toMarkdown resolver).value.toList, line.head? = some '>') ∧
    ¬ ∀ (resolver : Option Resolver) (site : Site) (n : Node) (spot : Spot),
      (∀ tag ∈ site.tags, tag ∉ unquotedTags) → n.isQuote = true →
        site.arrive? { cx := { resolver } } = some spot → StaysQuoted (n.shown spot) := by
  constructor
  · intro h
    have hline := h none (nodes (behindText.fill oneTwo)) behindText oneTwo rfl (by decide)
      (by decide)
    revert hline
    decide
  · intro h
    have hquoted := h none behindText oneTwo _ (by decide) (by decide) rfl
    revert hquoted
    decide

end Description

end DoxPages
