import DoxPages.Docs.Builder
import DoxPages.Proofs.Docs.Ordered

/-!
# The page that grouping makes

What a compound's page looks like after grouping depends on the settings and the
compound alone. `group_eq` says that grouping enters this page into a builder in
which it is free, and `Complete` what holds of it if every section is of a known
kind: anchors are distinct, and the sections list every overload once.
-/

namespace DoxPages.Docs

open Text Grouping Placement

/-! ## Names and titles -/

def bareName (c : Source.Compound) : String := (splitQualified c.name).2

def pageName (o : Options) (c : Source.Compound) : String :=
  o.pagePrefix ++ onChars lower (bareName c)

def displayName (o : Options) (c : Source.Compound) (member : String) : String :=
  overloadName o.renames member (bareName c)

def titleOf? (o : Options) (s : Source.Section) : Option String :=
  (o.sectionKinds.lookup s.kind).bind fun title => shownTitle? title s.header

/-- The members of the visible sections, in the order of the source. -/
def placements (o : Options) (c : Source.Compound) : List Placement :=
  c.sections.flatMap fun s =>
    match titleOf? o s with
    | none => []
    | some title => s.members.map fun m => ⟨title, displayName o c m.name, m⟩

/-- The error that ends the grouping of a compound with its page free. -/
def kindError? (o : Options) (c : Source.Compound) : Option ConfigError :=
  (shownSections o.sectionKinds c.sections).2

def readPlacements (o : Options) (c : Source.Compound) : List Placement :=
  place (displayName o c) (shownSections o.sectionKinds c.sections).1

def readTitles (o : Options) (c : Source.Compound) : List String :=
  ((shownSections o.sectionKinds c.sections).1.map Prod.fst).foldl addTitle []

section
variable (o : Options) (c : Source.Compound)

theorem nodup_readTitles : (readTitles o c).Nodup := nodup_openTitles List.nodup_nil

theorem title_mem_readTitles {p : Placement} (hp : p ∈ readPlacements o c) :
    p.title ∈ readTitles o c := by
  obtain ⟨s, hs, hp⟩ := List.mem_flatMap.1 hp
  obtain ⟨m, -, rfl⟩ := List.mem_map.1 hp
  exact mem_openTitles.2 (.inr (List.mem_map_of_mem hs))

theorem kindError?_eq_none_iff :
    kindError? o c = none ↔
      ∀ s ∈ c.sections, ∃ title, o.sectionKinds.lookup s.kind = some title := by
  unfold kindError?
  induction c.sections with
  | nil => simp [shownSections]
  | cons s ss ih =>
    rw [shownSections, classifySection, List.forall_mem_cons]
    cases hkind : o.sectionKinds.lookup s.kind with
    | none => simp
    | some title =>
      simp only
      rw [← ih]
      cases shownTitle? title s.header <;> simp

theorem readPlacements_eq (h : kindError? o c = none) : readPlacements o c = placements o c := by
  have h := (kindError?_eq_none_iff o c).1 h
  unfold readPlacements placements
  generalize displayName o c = nameOf
  generalize c.sections = ss at h
  induction ss with
  | nil => rfl
  | cons s ss ih =>
    obtain ⟨title, hkind⟩ := h s List.mem_cons_self
    have ih := ih fun t ht => h t (List.mem_cons_of_mem _ ht)
    have htitle : titleOf? o s = shownTitle? title s.header := by rw [titleOf?, hkind]; rfl
    rw [shownSections, classifySection, hkind, List.flatMap_cons, htitle]
    simp only
    cases shownTitle? title s.header with
    | none => exact ih
    | some t => rw [← ih]; rfl

end

/-! ## The page -/

def outline (o : Options) (c : Source.Compound) : Compound where
  kind := c.kind
  scope := (splitQualified c.name).1
  typeName := bareName c
  page := pageName o c
  scopeAlias := o.alias? (splitQualified c.name).1
  header := headerName c.file

def orderedOverloads (ps : List Placement) : List Overload :=
  anchored ((ofPlacements [] ps).overloads.map sortMembers)

/-- The page after grouping; without order and sections if a kind is unknown. -/
def groupedPage (o : Options) (c : Source.Compound) : Compound :=
  let ps := readPlacements o c
  match kindError? o c with
  | some _ => { outline o c with overloads := (ofPlacements [] ps).overloads }
  | none =>
    { outline o c with
      overloads := orderedOverloads ps
      sections := (ofPlacements (readTitles o c) ps).sections (orderedOverloads ps) }

theorem groupedPage_of_none {o : Options} {c : Source.Compound} (h : kindError? o c = none) :
    groupedPage o c = { outline o c with
      overloads := orderedOverloads (placements o c)
      sections := (ofPlacements (readTitles o c) (placements o c)).sections
        (orderedOverloads (placements o c)) } := by
  unfold groupedPage
  rw [h, readPlacements_eq o c h]

@[simp] theorem page_groupedPage (o : Options) (c : Source.Compound) :
    (groupedPage o c).page = pageName o c := by
  unfold groupedPage
  simp only
  split <;> rfl

@[simp] theorem bases_groupedPage (o : Options) (c : Source.Compound) :
    (groupedPage o c).bases = [] := by
  unfold groupedPage
  simp only
  split <;> rfl

theorem names_orderedOverloads (ps : List Placement) :
    ((orderedOverloads ps).map (·.name)).Perm ((firsts ps).map (·.name)) := by
  have h := map_anchored_perm ((ofPlacements [] ps).overloads.map sortMembers)
    (f := fun u => u.name) fun _ _ => rfl
  refine h.trans ?_
  rw [ofPlacements, List.map_map, List.map_map]
  exact List.Perm.refl _

theorem names_groupedPage (o : Options) (c : Source.Compound) :
    ((groupedPage o c).overloads.map (·.name)).Perm
      ((firsts (readPlacements o c)).map (·.name)) := by
  unfold groupedPage
  simp only
  split
  · rw [ofPlacements, List.map_map]
    exact List.Perm.refl _
  · exact names_orderedOverloads _

/-- Every overload has an anchor of its own and one place in one section. -/
structure Compound.Complete (c : Compound) : Prop where
  nodup_anchors : (c.overloads.map (·.anchor)).Nodup
  anchor_chars : ∀ o ∈ c.overloads, ∀ x ∈ o.anchor.toList, x = '#' ∨ Slugger.isSlugChar x = true
  listing : (c.sections.flatMap (·.overloads)).Perm (List.range c.overloads.length)

theorem complete_groupedPage {o : Options} {c : Source.Compound} (h : kindError? o c = none) :
    (groupedPage o c).Complete := by
  rw [groupedPage_of_none h, ← readPlacements_eq o c h]
  exact
    { nodup_anchors := nodup_anchors _
      anchor_chars := fun _ hu _ hx => mem_anchor _ hu hx
      listing := flatMap_overloads_perm (nodup_readTitles o c)
        (fun _ hp => title_mem_readTitles o c hp) (names_orderedOverloads _) }

namespace Compound

theorem Complete.listed_perm {c : Compound} (h : c.Complete) :
    (c.sections.flatMap c.listed).Perm c.overloads := by
  have hflat : c.sections.flatMap c.listed =
      (c.sections.flatMap (·.overloads)).filterMap fun i => c.overloads[i]? := by
    rw [List.filterMap_flatMap]
    rfl
  rw [hflat]
  exact filterMap_getElem?_perm h.listing

theorem exists_overload?_iff {c : Compound} {n : String} :
    (∃ u, c.overload? n = some u) ↔ n ∈ c.overloads.map (·.name) := by
  rw [← Option.isSome_iff_exists, overload?, List.find?_isSome, List.mem_map]
  simp

theorem overload?_mem {c : Compound} {n : String} {u : Overload} (h : c.overload? n = some u) :
    u ∈ c.overloads ∧ u.name = n :=
  ⟨List.mem_of_find?_eq_some h, by simpa using List.find?_some h⟩

end Compound

/-! ## The builder -/

namespace Builder

def enter (b : Builder) (c : Source.Compound) (p : Compound) (ps : List Placement) : Builder :=
  { b with
    compounds := b.compounds ++ [(p.page, p)]
    pages := Assoc.put c.id p.page b.pages
    members := Assoc.putAll b.members (ps.map fun q => (q.member.id, p.page, q.name))
    origins := b.origins ++ [(p.page, c.name)]
    declared := b.declared ++ [(p.page, ps.map (·.member))] }

@[simp] theorem options_enter (b : Builder) (c : Source.Compound) (p : Compound)
    (ps : List Placement) : (b.enter c p ps).options = b.options := rfl

/-- The tables that are kept by page have the same pages. -/
structure Aligned (b : Builder) : Prop where
  origins : b.origins.map Prod.fst = b.compounds.map Prod.fst
  declared : b.declared.map Prod.fst = b.compounds.map Prod.fst

theorem group_of_taken {b : Builder} {c : Source.Compound} {first : String}
    (h : b.origins.lookup (pageName b.options c) = some first) :
    b.group c = (b, some (.pageTaken (pageName b.options c) first c.name)) := by
  have hregister : b.register c = .error (.pageTaken (pageName b.options c) first c.name) := by
    unfold register
    simp only
    rw [show b.origins.lookup (b.pageOf (splitQualified c.name).2) = _ from h]
    rfl
  unfold group
  rw [hregister]

theorem adjust_last {β : Type} {k : String} {t : List (String × β)} (h : k ∉ t.map Prod.fst)
    (v w : β) : Assoc.adjust k (fun _ => w) (t ++ [(k, v)]) = t ++ [(k, w)] := by
  rw [Assoc.adjust_append, Assoc.adjust_of_not_mem h]
  simp [Assoc.adjust]

theorem register_of_free {b : Builder} {c : Source.Compound}
    (h : b.origins.lookup (pageName b.options c) = none) :
    b.register c = .ok (b.enter c (outline b.options c) [], outline b.options c) := by
  unfold register
  simp only
  rw [show b.origins.lookup (b.pageOf (splitQualified c.name).2) = _ from h]
  rfl

/-- Members are recorded on the page that was entered last. -/
theorem record_enter {b : Builder} (hb : b.Aligned) {c : Source.Compound} {p q : Compound}
    (hfree : q.page ∉ b.compounds.map Prod.fst) (hpage : p.page = q.page) (ps : List Placement) :
    (b.enter c q []).record p (ps.map fun r => (r.member, r.name)) = b.enter c p ps := by
  have hdeclared : q.page ∉ b.declared.map Prod.fst := by
    rw [hb.declared]
    exact hfree
  simp only [record, enter, hpage, List.map_nil, adjust_last hfree, adjust_last hdeclared,
    List.map_map]
  rfl

/-- A free page is entered as grouping makes it. -/
theorem group_eq {b : Builder} (hb : b.Aligned) {c : Source.Compound}
    (h : b.origins.lookup (pageName b.options c) = none) :
    b.group c = (b.enter c (groupedPage b.options c) (readPlacements b.options c),
      kindError? b.options c) := by
  have hfree : (outline b.options c).page ∉ b.compounds.map Prod.fst := by
    rw [← hb.origins]
    exact Assoc.lookup_eq_none_iff_keys.1 h
  have hread := addSections_eq b.options.sectionKinds (displayName b.options c) c.sections
  have hrecord := record_enter hb (c := c) (p := groupedPage b.options c) hfree
    (page_groupedPage ..) (readPlacements b.options c)
  rw [← hrecord]
  unfold group
  rw [register_of_free h]
  simp only
  rw [options_enter, show addSections b.options.sectionKinds
    (fun member => overloadName b.options.renames member (outline b.options c).typeName)
    c.sections {} = _ from hread]
  unfold groupedPage
  rw [kindError?]
  cases (shownSections b.options.sectionKinds c.sections).2 with
  | some e => rfl
  | none => rfl

end Builder

end DoxPages.Docs
