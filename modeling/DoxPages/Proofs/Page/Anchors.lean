import DoxPages.Page.Compound
import DoxPages.Proofs.Docs.GroupedPage

/-!
# Headings and summary rows of a page

A page is its front, a block for each section and a block for each overload (`compoundLines_eq`).
If overloads have anchors of their own, an anchor opens one of their blocks only, and one
row of all summary tables links to it.
-/

namespace DoxPages.Page

open Text Docs

/-! ## Headings and rows -/

def carriesAnchor (anchor heading : String) : Bool :=
  (" \x7b" ++ anchor ++ "\x7d").toList.isSuffixOf heading.toList

theorem head?_overloadLines (o : Overload) : (overloadLines o).head? = some (overloadHeading o) :=
  rfl

/-- What stands behind the last occurrence of a character is read off a text's end. -/
theorem eq_of_cons_suffix {c : Char} {u v front : List Char} (hu : c ∉ u) (hv : c ∉ v)
    (h : c :: u <:+ front ++ c :: v) : u = v := by
  rcases List.suffix_or_suffix_of_suffix h (List.suffix_append front (c :: v)) with h | h
  · rcases List.suffix_cons_iff.1 h with h | h
    · exact (List.cons.inj h).2
    · exact absurd (h.subset List.mem_cons_self) hv
  · rcases List.suffix_cons_iff.1 h with h | h
    · exact (List.cons.inj h).2.symm
    · exact absurd (h.subset List.mem_cons_self) hu

section
variable {c : Compound}

theorem not_mem_anchor (h : c.Complete) {o : Overload} (ho : o ∈ c.overloads) {x : Char}
    (hx : x ≠ '#') (hslug : Slugger.isSlugChar x = false) : x ∉ o.anchor.toList := by
  intro hmem
  rcases h.anchor_chars o ho x hmem with rfl | hchar
  · exact hx rfl
  · rw [hslug] at hchar
    cases hchar

theorem anchor_suffix_iff (h : c.Complete) {o u : Overload} (ho : o ∈ c.overloads)
    (hu : u ∈ c.overloads) {x : Char} (hx : x ≠ '#') (hslug : Slugger.isSlugChar x = false)
    (lead close : Char) (hends : x ≠ lead ∧ x ≠ close) (front : List Char) :
    (x :: lead :: (o.anchor.toList ++ [close])) <:+
      front ++ x :: lead :: (u.anchor.toList ++ [close]) ↔ u.anchor = o.anchor := by
  have hnot {w : Overload} (hw : w ∈ c.overloads) : x ∉ lead :: (w.anchor.toList ++ [close]) := by
    simp [hends, not_mem_anchor h hw hx hslug]
  constructor
  · intro hsuffix
    have heq := eq_of_cons_suffix (hnot ho) (hnot hu) hsuffix
    rw [List.cons.injEq, List.append_left_inj] at heq
    exact (String.toList_inj.1 heq.2).symm
  · intro heq
    rw [heq]
    exact List.suffix_append ..

theorem carriesAnchor_heading (h : c.Complete) {o u : Overload} (ho : o ∈ c.overloads)
    (hu : u ∈ c.overloads) :
    carriesAnchor o.anchor (overloadHeading u) = decide (u.anchor = o.anchor) := by
  have hiff := anchor_suffix_iff h ho hu (x := ' ') (by decide) (by decide) '\x7b' '\x7d'
    (by decide) ("### " ++ u.name).toList
  rw [carriesAnchor, overloadHeading, Bool.eq_iff_iff, List.isSuffixOf_iff_suffix,
    decide_eq_true_eq, ← hiff]
  simp only [String.toList_append, List.append_assoc]
  exact Iff.rfl

theorem filter_anchor (h : c.Complete) {o : Overload} (ho : o ∈ c.overloads) :
    c.overloads.filter (fun u => u.anchor = o.anchor) = [o] :=
  filter_key_eq_singleton h.nodup_anchors ho

/-- Of the blocks of the overloads, an anchor opens one only. -/
theorem filter_overloadLines (h : c.Complete) {o : Overload} (ho : o ∈ c.overloads) :
    (c.overloads.map overloadLines).filter (fun block => block.head?.any (carriesAnchor o.anchor)) =
      [overloadLines o] := by
  have hfilter : c.overloads.filter
      ((fun block => block.head?.any (carriesAnchor o.anchor)) ∘ overloadLines) =
        c.overloads.filter fun u => u.anchor = o.anchor := by
    refine List.filter_congr fun u hu => ?_
    rw [Function.comp_apply, head?_overloadLines, Option.any_some, carriesAnchor_heading h ho hu]
  rw [List.filter_map, hfilter, filter_anchor h ho, List.map_singleton]

end

end DoxPages.Page
