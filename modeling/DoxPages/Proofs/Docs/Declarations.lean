import DoxPages.Proofs.Docs.Linked
import DoxPages.Proofs.Docs.Overloads

/-!
# Every declaration has its place

A compound that was grouped and converted documents each visible member once, with
texts rendered from that member. Each name has one overload, and each overload
stands in one section: the one where its name came first.
-/

namespace DoxPages.Docs

open Grouping Placement

/-- A declaration as a page shows it. -/
def shownMember (r : Resolver) (m : Source.Member) : Member where
  source := m
  brief := (m.brief.toMarkdown (some r)).value
  details := (m.detailed.toMarkdown (some r)).value
  summary := summarize (m.brief.toMarkdown (some r)).value (m.detailed.toMarkdown (some r)).value
  prototype := m.prototype.value

/-- A page shows the placed members, each once and with its own texts. -/
structure Compound.Shows (r : Resolver) (ps : List Placement) (p : Compound) : Prop where
  nodup_names : (p.overloads.map (·.name)).Nodup
  mem_names : ∀ n, n ∈ p.overloads.map (·.name) ↔ n ∈ ps.map (·.name)
  members : ∀ u ∈ p.overloads, ∃ sources, StablySorted (·.line) (membersOf ps u.name) sources ∧
    u.members = sources.map (shownMember r)
  line : ∀ u ∈ p.overloads, (u.members.map (·.line)).min? = some u.line
  listed_once : (p.sections.flatMap p.listed).Perm p.overloads
  own_section : ∀ u ∈ p.overloads, ∃ s ∈ p.sections, u ∈ p.listed s ∧
    (ps.find? fun q => q.name = u.name).map (·.title) = some s.title ∧
      ∀ t ∈ p.sections, u ∈ p.listed t → t = s
  nodup_titles : (p.sections.map (·.title)).Nodup
  nonempty : ∀ s ∈ p.sections, p.listed s ≠ []

/-! ## Sections of the grouped page -/

section
variable {o : Options} {c : Source.Compound} {s : Section}

/-- The sections of the grouped page list the names that come first under their titles. -/
theorem mem_sections_groupedPage (h : kindError? o c = none) (hs : s ∈ (groupedPage o c).sections) :
    namesUnder (placements o c) s.title ≠ [] ∧
      (groupedPage o c).listed s = (located (orderedOverloads (placements o c))
        (namesUnder (placements o c) s.title)).map (·.1) := by
  rw [groupedPage_of_none h] at hs ⊢
  obtain ⟨t, ht, rfl⟩ := mem_sections.1 hs
  have hnames : namesUnder (placements o c) t ≠ [] := of_decide_eq_true (List.mem_filter.1 ht).2
  refine ⟨hnames, ?_⟩
  rw [Compound.listed, sectionOf_eq]
  exact filterMap_getElem?_located _

theorem mem_listed_groupedPage (h : kindError? o c = none) (hs : s ∈ (groupedPage o c).sections)
    {u : Overload} (hu : u ∈ (groupedPage o c).listed s) :
    ∃ q ∈ firsts (placements o c), q.title = s.title ∧ q.name = u.name := by
  obtain ⟨-, hlisted⟩ := mem_sections_groupedPage h hs
  rw [hlisted] at hu
  obtain ⟨x, hx, rfl⟩ := List.mem_map.1 hu
  obtain ⟨n, hn, hlocate⟩ := mem_located.1 hx
  rw [(locate_some hlocate).2]
  exact mem_namesUnder.1 hn

theorem listed_groupedPage_ne_nil (h : kindError? o c = none)
    (hs : s ∈ (groupedPage o c).sections) : (groupedPage o c).listed s ≠ [] := by
  obtain ⟨hnames, hlisted⟩ := mem_sections_groupedPage h hs
  rw [hlisted, ne_eq, List.map_eq_nil_iff]
  exact located_namesUnder_ne_nil hnames

theorem overloads_groupedPage (h : kindError? o c = none) :
    (groupedPage o c).overloads = orderedOverloads (placements o c) := by
  rw [groupedPage_of_none h]

theorem nodup_titles_groupedPage (h : kindError? o c = none) :
    ((groupedPage o c).sections.map (·.title)).Nodup := by
  rw [groupedPage_of_none h]
  exact nodup_section_titles (nodup_readTitles o c)

end

/-! ## The page with its texts -/

theorem members_documentOverload (r : Resolver) (p : Compound) (u : Overload) :
    (Builder.documentOverload r p u).members = (u.members.map (·.source)).map (shownMember r) := by
  rw [List.map_map]
  rfl

theorem listed_documented (b : Builder) (c : Source.Compound) (p : Compound) (s : Section) :
    (b.documented c p).listed s = (p.listed s).map (Builder.documentOverload b.resolver p) := by
  simp only [Compound.listed, Builder.documented_overloads, List.getElem?_map, List.map_filterMap]

section
variable {ps : List Placement} {v : Overload} (hv : v ∈ orderedOverloads ps) (r : Resolver)
  (p : Compound)
include hv

theorem documentOverload_shows : ∃ sources,
    StablySorted (·.line) (membersOf ps v.name) sources ∧
      (Builder.documentOverload r p v).members = sources.map (shownMember r) := by
  have hsorted := stablySorted_mergeSort (·.line) (membersOf ps v.name)
  rw [← sources_orderedOverloads hv] at hsorted
  exact ⟨_, hsorted, members_documentOverload r p v⟩

theorem documentOverload_line_eq :
    ((Builder.documentOverload r p v).members.map (·.line)).min? = some v.line := by
  have hlines : (Builder.documentOverload r p v).members.map (·.line) =
      (v.members.map (·.source)).map (·.line) := by
    rw [members_documentOverload, List.map_map]
    rfl
  rw [hlines, sources_orderedOverloads hv, min?_eq_of_perm ((List.mergeSort_perm ..).map _)]
  exact line_orderedOverloads hv

end

section
variable {o : Options} {c : Source.Compound} (h : kindError? o c = none) (b : Builder)
include h

theorem mem_overloads_documented {u : Overload}
    (hu : u ∈ (b.documented c (groupedPage o c)).overloads) :
    ∃ v ∈ orderedOverloads (placements o c),
      Builder.documentOverload b.resolver (groupedPage o c) v = u := by
  rw [Builder.documented_overloads, overloads_groupedPage h] at hu
  exact List.mem_map.1 hu

theorem names_documented : (b.documented c (groupedPage o c)).overloads.map (·.name) =
    (orderedOverloads (placements o c)).map (·.name) := by
  rw [b.map_documented_overloads c _ fun _ => rfl, overloads_groupedPage h]

theorem title_of_listed {s : Section} (hs : s ∈ (groupedPage o c).sections) {u : Overload}
    (hu : u ∈ (b.documented c (groupedPage o c)).listed s) :
    ((placements o c).find? fun q => q.name = u.name).map (·.title) = some s.title := by
  rw [listed_documented] at hu
  obtain ⟨v, hv, rfl⟩ := List.mem_map.1 hu
  obtain ⟨q, hq, hqtitle, hqname⟩ := mem_listed_groupedPage h hs hv
  rw [Builder.documentOverload_name, ← hqname, find?_of_mem_firsts hq, ← hqtitle]
  rfl

theorem shows_documented :
    (b.documented c (groupedPage o c)).Shows b.resolver (placements o c) := by
  have hlisted := (complete_groupedPage h).documented (b := b) (c := c) |>.listed_perm
  have hnodup := nodup_titles_groupedPage h
  refine
    { nodup_names := ?_, mem_names := ?_, members := ?_, line := ?_, listed_once := hlisted
      own_section := ?_, nodup_titles := hnodup, nonempty := ?_ }
  · rw [names_documented h]
    exact nodup_names_orderedOverloads _
  · intro n
    rw [names_documented h, (names_orderedOverloads _).mem_iff, mem_names_firsts]
  · intro u hu
    obtain ⟨v, hv, rfl⟩ := mem_overloads_documented h b hu
    exact documentOverload_shows hv ..
  · intro u hu
    obtain ⟨v, hv, rfl⟩ := mem_overloads_documented h b hu
    exact documentOverload_line_eq hv ..
  · intro u hu
    obtain ⟨s, hs, hus⟩ := List.mem_flatMap.1 (hlisted.mem_iff.2 hu)
    have htitle := title_of_listed h b hs hus
    refine ⟨s, hs, hus, htitle, fun t ht hut => ?_⟩
    have heq := (title_of_listed h b ht hut).symm.trans htitle
    exact List.inj_on_of_nodup_map hnodup ht hs (Option.some.inj heq)
  · intro s hs
    rw [listed_documented, ne_eq, List.map_eq_nil_iff]
    exact listed_groupedPage_ne_nil h hs

end

/-! ## Grouping and conversion -/

namespace Builder

/-- A compound that is grouped and then converted shows its visible members. -/
theorem convert_shows_members (o : Options) (cs : List Call) (c : Source.Compound) (b : Builder)
    (h : ((fresh o).calls cs).group c = (b, none)) :
    ∃ p, (b.convert c).value.compounds.lookup (pageName o c) = some p ∧
      p.Shows b.resolver (placements o c) := by
  have hfresh := sound_fresh o
  have hsound := hfresh.calls cs
  obtain ⟨hkind, hfree, -⟩ := hsound.linked.group_none h
  have hcompounds := hsound.linked.convert_group h
  rw [hsound.options] at hkind hfree hcompounds
  refine ⟨b.documented c (groupedPage o c), ?_, shows_documented hkind b⟩
  rw [hcompounds, List.lookup_append, Assoc.lookup_eq_none_iff_keys.2 hfree]
  simp

/-- A class whose overloads span sections, and whose lines are out of order. -/
def scattered : Source.Compound where
  id := "shape"
  kind := "class"
  name := "geo::Shape"
  sections := [
    { kind := "public-func"
      members := [{ name := "area", line := 9 }, { name := "Shape", line := 4 }] },
    { kind := "user-defined", header := "Public members"
      members := [{ name := "scale", line := 7 }] },
    { kind := "protected-func", members := [{ name := "area", line := 2 }] }]

theorem convert_shows_members_scattered : ∃ b p,
    ((fresh {}).calls []).group scattered = (b, none) ∧
      (b.convert scattered).value.compounds.lookup "shape" = some p ∧
        p.Shows b.resolver (placements {} scattered) ∧ (placements {} scattered).length = 4 := by
  have hnone : (((fresh {}).calls []).group scattered).2 = none := by decide +kernel
  have hgroup : ((fresh {}).calls []).group scattered =
      ((((fresh {}).calls []).group scattered).1, none) := Prod.ext rfl hnone
  obtain ⟨p, hp, hshows⟩ := convert_shows_members {} [] scattered _ hgroup
  have hpage : pageName {} scattered = "shape" := by decide +kernel
  rw [hpage] at hp
  exact ⟨_, p, hgroup, hp, hshows, by decide +kernel⟩

end Builder

end DoxPages.Docs
