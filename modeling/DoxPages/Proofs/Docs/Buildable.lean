import DoxPages.Proofs.Docs.Declarations
import DoxPages.Proofs.Docs.Overflow

/-!
# When a model can be built

A build fails exactly if two documented compounds have the same bare name in lower
case or one of them has a section of an unknown kind, and its error names such
compounds or such a kind: `Blames`. Otherwise every conversion finds what it looks
up, which is `Convertible`, and every documented compound has its page, in the order
of the model. It may still break off on the way there, at a heading that is too deep.
-/

namespace DoxPages.Docs

open Text Grouping Placement

/-- The bare name of a compound in lower case. -/
def lowerName (c : Source.Compound) : String := onChars lower (bareName c)

/-- Two of the compounds have the same bare name in lower case. -/
def NamesClash (cs : List Source.Compound) : Prop :=
  ∃ c d, [c, d].Sublist cs ∧ lowerName c = lowerName d

def HasUnknownKind (o : Options) (cs : List Source.Compound) : Prop :=
  ∃ c ∈ cs, ∃ s ∈ c.sections, o.sectionKinds.lookup s.kind = none

/-- An error names two of the compounds that want one page, or a kind of a section of
theirs that is unknown. -/
def Blames (o : Options) (cs : List Source.Compound) : ConfigError → Prop
  | .pageTaken page first second => ∃ c d, [c, d].Sublist cs ∧ lowerName c = lowerName d ∧
      page = pageName o d ∧ first = c.name ∧ second = d.name
  | .unknownSectionKind kind => ∃ c ∈ cs, ∃ s ∈ c.sections, s.kind = kind ∧
      o.sectionKinds.lookup kind = none
  | .badAddresses .. => False

section
variable {o : Options} {c d : Source.Compound} {cs : List Source.Compound}

/-! ## Names and kinds -/

theorem pageName_eq_iff : pageName o c = pageName o d ↔ lowerName c = lowerName d :=
  String.append_right_inj _

theorem not_nodup_pageNames_iff : ¬ (cs.map (pageName o)).Nodup ↔ NamesClash cs := by
  rw [List.Nodup, List.pairwise_map, List.pairwise_iff_forall_sublist, NamesClash]
  simp only [ne_eq, pageName_eq_iff]
  push Not
  rfl

theorem not_forall_known_iff : ¬ (∀ c ∈ cs, kindError? o c = none) ↔ HasUnknownKind o cs := by
  simp only [kindError?_eq_none_iff, ← Option.isSome_iff_exists, HasUnknownKind]
  push Not
  simp only [ne_eq, Option.not_isSome_iff_eq_none]

theorem shownSections_of_unknown {kinds : List (String × String)} {ss : List Source.Section}
    {e : ConfigError} (h : (shownSections kinds ss).2 = some e) :
    ∃ before s after, ss = before ++ s :: after ∧
      (∀ t ∈ before, ∃ title, kinds.lookup t.kind = some title) ∧
      kinds.lookup s.kind = none ∧ e = .unknownSectionKind s.kind ∧
      (shownSections kinds ss).1 = (shownSections kinds before).1 := by
  induction ss with
  | nil => cases h
  | cons s ss ih =>
    rw [shownSections, classifySection] at h ⊢
    cases hkind : kinds.lookup s.kind with
    | none =>
      rw [hkind] at h
      exact ⟨[], s, ss, rfl, by simp, hkind, (Option.some.inj h).symm, rfl⟩
    | some title =>
      rw [hkind] at h
      have hrest : (shownSections kinds ss).2 = some e := by
        revert h
        simp only
        cases shownTitle? title s.header <;> exact id
      obtain ⟨before, t, after, rfl, hknown, hunknown, he, hshown⟩ := ih hrest
      refine ⟨s :: before, t, after, rfl, ?_, hunknown, he, ?_⟩
      · exact List.forall_mem_cons.2 ⟨⟨title, hkind⟩, hknown⟩
      · conv => rhs; rw [shownSections, classifySection, hkind]
        simp only
        cases shownTitle? title s.header with
        | none => exact hshown
        | some shown => simp only [hshown]

/-! ## Errors of grouping -/

namespace Builder

/-- Grouping after some compounds fails because of one of those or of the new ones. -/
theorem Linked.blames_groupAll {b : Builder} (hb : b.Linked) {before : List Source.Compound}
    (horigins : b.origins = before.map fun c => (pageName b.options c, c.name)) {e : ConfigError}
    (h : (b.groupAll cs).value.2 = some e) : Blames b.options (before ++ cs) e := by
  induction cs generalizing b before with
  | nil => cases h
  | cons c cs ih =>
    have hc : c ∈ before ++ c :: cs := List.mem_append_right _ List.mem_cons_self
    rw [groupAll_cons] at h
    cases htaken : b.origins.lookup (pageName b.options c) with
    | some first =>
      rw [group_of_taken htaken] at h
      obtain rfl := Option.some.inj h
      have hmem := Assoc.mem_of_lookup htaken
      rw [horigins] at hmem
      obtain ⟨d, hd, heq⟩ := List.mem_map.1 hmem
      obtain ⟨hpage, rfl⟩ := Prod.mk.inj heq
      refine ⟨d, c, ?_, pageName_eq_iff.1 hpage, rfl, rfl, rfl⟩
      exact (List.singleton_sublist.2 hd).append (List.singleton_sublist.2 List.mem_cons_self)
    | none =>
      have hgroup := group_eq hb.aligned htaken
      have hlinked := hb.group c
      rw [hgroup] at h hlinked
      cases hkind : kindError? b.options c with
      | some e' =>
        rw [hkind] at h
        obtain rfl := Option.some.inj h
        obtain ⟨known, s, after, hsections, -, hunknown, rfl, -⟩ := shownSections_of_unknown hkind
        exact ⟨c, hc, s, by simp [hsections], rfl, hunknown⟩
      | none =>
        rw [hkind] at h
        have hentered : (b.enter c (groupedPage b.options c) (readPlacements b.options c)).origins =
            (before ++ [c]).map fun c => (pageName b.options c, c.name) := by
          rw [Builder.enter, page_groupedPage, horigins, List.map_append]
          rfl
        have hrest := ih hlinked hentered h
        rwa [options_enter, List.append_assoc] at hrest

end Builder

/-! ## Pages -/

/-- A page named after a compound, with a declaration in every overload and an overload
in every section. -/
structure Compound.PageOf (o : Options) (c : Source.Compound) (p : Compound) : Prop where
  page : p.page = pageName o c
  kind : p.kind = c.kind
  name : (p.scope, p.typeName) = splitQualified c.name
  declares : ∀ u ∈ p.overloads, u.members ≠ []
  lists : ∀ s ∈ p.sections, p.listed s ≠ []

theorem Compound.pageOf_groupedPage (h : kindError? o c = none) :
    (groupedPage o c).PageOf o c where
  page := page_groupedPage o c
  kind := by rw [groupedPage_of_none h]; rfl
  name := by rw [groupedPage_of_none h]; rfl
  declares u hu := by
    rw [overloads_groupedPage h] at hu
    have hname := (mem_orderedOverloads hu).1
    have hsources := sources_orderedOverloads hu
    rintro hnil
    rw [hnil, List.map_nil] at hsources
    have hperm := List.mergeSort_perm (membersOf (placements o c) u.name) (keyLe (·.line))
    rw [← hsources] at hperm
    exact membersOf_ne_nil hname hperm.nil_eq.symm
  lists s hs := listed_groupedPage_ne_nil h hs

theorem Compound.PageOf.documented {p : Compound} (h : p.PageOf o c) (b : Builder)
    (d : Source.Compound) : (b.documented d p).PageOf o c where
  page := h.page
  kind := h.kind
  name := h.name
  declares u hu := by
    rw [Builder.documented_overloads] at hu
    obtain ⟨v, hv, rfl⟩ := List.mem_map.1 hu
    rw [members_documentOverload]
    simpa using h.declares v hv
  lists s hs := by
    rw [listed_documented]
    simpa using h.lists s hs

theorem Compound.PageOf.converted {p : Compound} (h : p.PageOf o c) (b : Builder)
    (ds : List Source.Compound) (k : String) : (b.converted ds k p).PageOf o c := by
  unfold Builder.converted
  cases b.lastOn ds k with
  | none => exact h
  | some d => exact h.documented b d

namespace Builder

/-- What the conversion of a compound looks up is there: its page, the declarations it
renders, and in each overload the one that gives the summary. -/
def Convertible (b : Builder) (c : Source.Compound) : Prop :=
  ∃ k p ms, b.pages.lookup c.id = some k ∧ b.compounds.lookup k = some p ∧
    b.declared.lookup k = some ms ∧ ∀ u ∈ p.overloads, u.members ≠ []

section
variable {b : Builder} (h : ((fresh o).groupAll cs).value = (b, none))
include h

theorem entries_convertAll (ds : List Source.Compound) : (b.convertAll ds).value.compounds =
    cs.map fun c => (pageName o c, b.converted ds (pageName o c) (groupedPage o c)) := by
  have hfresh := linked_fresh o
  obtain ⟨-, hcompounds, -, -⟩ := hfresh.groupAll_none h
  rw [(hfresh.groupAll h).convertAll_eq]
  show b.compounds.map _ = _
  rw [hcompounds]
  show (groupedPages o cs).map _ = _
  rw [groupedPages, List.map_map]
  rfl

theorem pageOf_converted (ds : List Source.Compound) (hc : c ∈ cs) :
    (b.converted ds (pageName o c) (groupedPage o c)).PageOf o c := by
  have hknown := (((linked_fresh o).groupAll_isNone_iff cs).1 (congrArg Prod.snd h)).2
  exact (Compound.pageOf_groupedPage (hknown c hc)).converted b ds _

/-- Whatever has been converted, any of the compounds can be converted next. -/
theorem convertible_convertAll (ds : List Source.Compound) (hc : c ∈ cs) :
    (b.convertAll ds).value.Convertible c := by
  have hfresh := linked_fresh o
  have hlinked := (hfresh.groupAll h).convertAll ds
  have hentries := entries_convertAll h ds
  have htargets := (hfresh.groupAll h).sameTargets_convertAll ds
  obtain ⟨k, hk⟩ : ∃ k, (b.convertAll ds).value.pages.lookup c.id = some k := by
    rw [htargets.pages, (hfresh.groupAll_none h).2.2.1, Assoc.exists_lookup_iff_keys,
      Assoc.mem_keys_putAll, List.map_map]
    exact .inr (List.mem_map_of_mem hc)
  generalize (b.convertAll ds).value = b₁ at hlinked hentries hk ⊢
  have hkey := hlinked.pages c.id k hk
  obtain ⟨p, hp⟩ := Assoc.exists_lookup_iff_keys.2 hkey
  obtain ⟨ms, hms⟩ := Assoc.exists_lookup_iff_keys.2 (hlinked.aligned.declared ▸ hkey)
  have hmem := Assoc.mem_of_lookup hp
  rw [hentries] at hmem
  obtain ⟨d, hd, heq⟩ := List.mem_map.1 hmem
  obtain ⟨-, rfl⟩ := Prod.mk.inj heq
  exact ⟨k, _, ms, hk, hp, hms, (pageOf_converted h ds hd).declares⟩

end

/-! ## Building a model -/

/-- A build fails if names clash or a section kind is unknown, and the error says which. Else
it breaks off exactly if a heading that is too deep is rendered, and every documented compound
is converted and has its page. -/
theorem build_outcome (o : Options) (model : Source.Model) :
    (((fresh o).build model).value.2 ≠ none ↔
      NamesClash (documentedIn o model) ∨ HasUnknownKind o (documentedIn o model)) ∧
    (∀ e, ((fresh o).build model).value.2 = some e → Blames o (documentedIn o model) e) ∧
    (((fresh o).build model).stopped ≠ none ↔
      ¬ NamesClash (documentedIn o model) ∧ ¬ HasUnknownKind o (documentedIn o model) ∧
        Overflows o (documentedIn o model)) ∧
    ∀ b, ((fresh o).build model).value = (b, none) →
      (b.compounds.map Prod.fst).Nodup ∧
      List.Forall₂ (fun c e => e.1 = pageName o c ∧ e.2.PageOf o c)
        (documentedIn o model) b.compounds ∧
      ∃ grouped, ((fresh o).groupAll (documentedIn o model)).value = (grouped, none) ∧
        b = (grouped.convertAll (documentedIn o model)).value ∧
        ∀ before c, before ++ [c] <+: documentedIn o model →
          (grouped.convertAll before).value.Convertible c := by
  have hfresh := linked_fresh o
  have hfails := build_fails_iff o model
  have hcauses : ((fresh o).build model).value.2 ≠ none ↔
      NamesClash (documentedIn o model) ∨ HasUnknownKind o (documentedIn o model) := by
    rw [hfails, ne_eq, hfresh.groupAll_isNone_iff, not_and_or]
    exact or_congr not_nodup_pageNames_iff not_forall_known_iff
  refine ⟨hcauses, fun e he => ?_, ?_, fun b hb => ?_⟩
  · have hgroup : ((fresh o).groupAll (documentedIn o model)).value.2 = some e := by
      rw [build_eq, show (fresh o).options = o from rfl] at he
      revert he hfails
      cases ((fresh o).groupAll (documentedIn o model)).value with
      | mk b e' => cases e' <;> simp
    have horigins : (fresh o).origins = [].map fun c => (pageName o c, c.name) := rfl
    exact hfresh.blames_groupAll horigins hgroup
  · rw [stopped_build_iff, ← and_assoc, ← not_or, ← hcauses, not_not]
  · have hnone := not_ne_iff.1 (mt hfails.2 (not_ne_iff.2 (congrArg Prod.snd hb)))
    have hgroup : ((fresh o).groupAll (documentedIn o model)).value =
        (((fresh o).groupAll (documentedIn o model)).value.1, none) := Prod.ext rfl hnone
    rw [build_eq_some hgroup] at hb
    obtain rfl := congrArg Prod.fst hb
    refine ⟨((hfresh.groupAll hgroup).convertAll _).nodup, ?_, _, hgroup, rfl,
      fun before c hc => ?_⟩
    · rw [entries_convertAll hgroup, List.forall₂_map_right_iff, List.forall₂_same]
      exact fun c hc => ⟨rfl, pageOf_converted hgroup _ hc⟩
    · exact convertible_convertAll hgroup before (hc.subset (by simp))

theorem build_outcome_shelves :
    ((fresh {}).build
      [("shelf", shelf), ("ints", { shelf with name := "wood::SHELF<int>" })]).value.2 ≠ none ∧
    ((fresh {}).build [("shelf", shelf), ("book", book)]).stopped = none ∧
    ∃ b, ((fresh {}).build [("shelf", shelf), ("book", book)]).value = (b, none) ∧
      List.Forall₂ (fun c e => e.1 = pageName {} c ∧ e.2.PageOf {} c) [shelf, book]
        b.compounds := by
  refine ⟨?_, ?_, ?_⟩
  · refine (build_outcome {} _).1.2
      (.inl ⟨shelf, { shelf with name := "wood::SHELF<int>" }, ?_, ?_⟩)
    · rw [show documentedIn {} _ = [shelf, { shelf with name := "wood::SHELF<int>" }] from rfl]
    · decide +kernel
  · rw [← not_ne_iff, (build_outcome {} _).2.2.1]
    rintro ⟨-, -, c, hc, hdeep⟩
    refine hdeep ?_
    revert c
    decide +kernel
  · obtain ⟨b, hb⟩ :
        ∃ b, ((fresh {}).build [("shelf", shelf), ("book", book)]).value = (b, none) := by
      have hnone : ((fresh {}).build [("shelf", shelf), ("book", book)]).value.2 = none := by
        decide +kernel
      exact ⟨_, Prod.ext rfl hnone⟩
    exact ⟨b, hb, ((build_outcome {} _).2.2.2 b hb).2.1⟩

/-- A class whose description has a heading on a level beyond all counts. -/
def abyss : Source.Compound where
  id := "abyss"
  kind := "class"
  name := "Abyss"
  brief := .element "heading" [("level", "99999999999999999999")] [.text "Down"]

/-- Nothing is wrong with its name and its sections, but the build breaks off. -/
theorem not_build_outcome_abyss : ¬ ∀ (o : Options) (model : Source.Model),
    ¬ NamesClash (documentedIn o model) → ¬ HasUnknownKind o (documentedIn o model) →
      ((fresh o).build model).stopped = none := by
  intro h
  have hnames : ¬ NamesClash (documentedIn {} [("abyss", abyss)]) := by
    rw [← not_nodup_pageNames_iff (o := {})]
    decide
  have hkinds : ¬ HasUnknownKind {} (documentedIn {} [("abyss", abyss)]) := by
    rw [← not_forall_known_iff]
    decide
  have hstopped := h {} [("abyss", abyss)] hnames hkinds
  revert hstopped
  decide +kernel

end Builder

end

end DoxPages.Docs
