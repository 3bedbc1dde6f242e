import DoxPages.Proofs.Docs.Conversion
import DoxPages.Proofs.Docs.SectionOrder

/-!
# Declarations in another order

The sections of a compound and the members in them may come in any order: if no two
visible members share a line or an id, and each name stands under one title, then
either both compounds cannot be grouped, or they have the same page and the same
overloads for all ids.
-/

namespace DoxPages.Docs

open Grouping Placement

/-! ## Reordered compounds -/

structure SameSection (s t : Source.Section) : Prop where
  kind : s.kind = t.kind
  header : s.header = t.header
  members : s.members.Perm t.members

/-- The same compound with sections, and members in them, in another order. -/
structure Reordered (c c' : Source.Compound) : Prop where
  rest : c' = { c with sections := c'.sections }
  sections : ∃ ss, c.sections.Perm ss ∧ List.Forall₂ SameSection ss c'.sections

section
variable {c c' : Source.Compound} (h : Reordered c c') (o : Options)
include h

theorem Reordered.placements : (placements o c).Perm (placements o c') := by
  obtain ⟨ss, hperm, hsections⟩ := h.sections
  refine (hperm.flatMap_right _).trans ?_
  rw [h.rest]
  refine List.Perm.flatten_congr ?_
  rw [List.forall₂_map_left_iff, List.forall₂_map_right_iff]
  refine hsections.imp fun s t hst => ?_
  have htitle : titleOf? o s = titleOf? o t := by
    rw [titleOf?, titleOf?, hst.kind, hst.header]
  rw [htitle]
  cases titleOf? o t with
  | none => exact List.Perm.refl _
  | some title => exact hst.members.map _

theorem Reordered.kindError? : kindError? o c = none ↔ kindError? o c' = none := by
  obtain ⟨ss, hperm, hsections⟩ := h.sections
  have hkinds : (ss.map fun s => s.kind) = c'.sections.map fun s => s.kind := by
    rw [← List.forall₂_eq_eq_eq, List.forall₂_map_left_iff, List.forall₂_map_right_iff]
    exact hsections.imp fun _ _ hst => hst.kind
  have hperm := hperm.map fun s => s.kind
  rw [hkinds] at hperm
  have hiff (d : Source.Compound) : Docs.kindError? o d = none ↔
      ∀ k ∈ d.sections.map (·.kind), ∃ title, o.sectionKinds.lookup k = some title := by
    rw [kindError?_eq_none_iff, List.forall_mem_map]
  rw [hiff, hiff]
  simp only [hperm.mem_iff]

theorem Reordered.groupedPage (hlines : ((Docs.placements o c).map fun p => p.member.line).Nodup)
    (htitles : ∀ p ∈ Docs.placements o c, ∀ q ∈ Docs.placements o c, p.name = q.name →
      p.title = q.title) (hkind : Docs.kindError? o c = none) :
    Docs.groupedPage o c = Docs.groupedPage o c' := by
  have hkind' := (h.kindError? o).1 hkind
  have hmem {d : Source.Compound} (hd : Docs.kindError? o d = none) :
      ∀ p ∈ Docs.placements o d, p.title ∈ readTitles o d := by
    rw [← readPlacements_eq o d hd]
    exact fun p hp => title_mem_readTitles o d hp
  have houtline : outline o c = outline o c' := by
    rw [h.rest]
    rfl
  rw [groupedPage_of_none hkind, groupedPage_of_none hkind', houtline,
    sections_eq_of_perm (h.placements o) htitles (nodup_readTitles o c) (nodup_readTitles o c')
      (hmem hkind) (hmem hkind') hlines,
    orderedOverloads_eq_of_perm (h.placements o) hlines]

end

/-! ## Builders with the same tables -/

namespace Builder

/-- Two builders that answer alike. -/
structure Alike (b b' : Builder) : Prop where
  options : b.options = b'.options
  compounds : b.compounds = b'.compounds
  pages : b.pages = b'.pages
  members : ∀ id, b.members.lookup id = b'.members.lookup id

section
variable {b b' : Builder} (h : b.Alike b')
include h

theorem Alike.member? (id : String) : b.member? id = b'.member? id := by
  unfold Builder.member? overload?
  rw [h.members, h.compounds]

theorem Alike.documented (c : Source.Compound) (p : Compound) :
    b.documented c p = b'.documented c p := by
  have htargets : b.SameTargets b' :=
    .of_lookup h.options (fun k => by rw [h.compounds]) (fun id => by rw [h.pages]) h.members
  exact htargets.documented c p

end

/-! ## Grouping and conversion -/

theorem Alike.convert {b b' : Builder} (h : b.Alike b') {c c' : Source.Compound}
    (hcompounds : (b.convert c).value.compounds = (b'.convert c').value.compounds) :
    (b.convert c).value.Alike (b'.convert c').value := by
  obtain ⟨hpages, hmembers, -, -⟩ := tables_convert b c
  obtain ⟨hpages', hmembers', -, -⟩ := tables_convert b' c'
  refine { options := ?_, compounds := hcompounds, pages := ?_, members := fun id => ?_ }
  · rw [options_convert, options_convert, h.options]
  · rw [hpages, hpages', h.pages]
  · rw [hmembers, hmembers', h.members]

end Builder

end DoxPages.Docs
