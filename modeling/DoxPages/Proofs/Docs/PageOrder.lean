import DoxPages.Proofs.Docs.Declarations
import DoxPages.Proofs.Docs.SectionOrder

/-!
# The order of a page

`InOrder` says how a page is put in order: deprecated sections behind the others,
sections and the overloads in them by line, overloads that share a line as they
were first seen, the flat list by name. Each name then has an anchor that depends
on the names of the page and on nothing else.
-/

namespace DoxPages.Docs

open Grouping Placement

/-! ## First sight -/

/-- What is kept once each stands by the place where it came first. -/
theorem pairwise_idxOf_firstSeen (us : List String) :
    (us.foldl addTitle []).Pairwise fun s t => us.idxOf s < us.idxOf t := by
  induction us using List.reverseRecOn with
  | nil => exact List.Pairwise.nil
  | append_singleton us u ih =>
    have hmem {t : String} (ht : t ∈ us.foldl addTitle []) : t ∈ us :=
      (mem_openTitles.1 ht).resolve_left List.not_mem_nil
    have hidx {t : String} (ht : t ∈ us) : (us ++ [u]).idxOf t = us.idxOf t :=
      List.idxOf_append_of_mem ht
    have hkept : (us.foldl addTitle []).Pairwise
        fun s t => (us ++ [u]).idxOf s < (us ++ [u]).idxOf t := by
      refine ih.imp_of_mem fun {s t} hs ht hlt => ?_
      rwa [hidx (hmem hs), hidx (hmem ht)]
    rw [List.foldl_append, List.foldl_cons, List.foldl_nil, addTitle]
    split
    · exact hkept
    · rename_i hnew
      have hnew : u ∉ us := fun hu => hnew (mem_openTitles.2 (.inr hu))
      refine List.pairwise_append.2 ⟨hkept, List.pairwise_singleton .., fun s hs t ht => ?_⟩
      rw [List.mem_singleton.1 ht, hidx (hmem hs), List.idxOf_append_of_notMem hnew]
      have hlt := List.idxOf_lt_length_of_mem (hmem hs)
      omega

theorem names_firsts (ps : List Placement) :
    (firsts ps).map (·.name) = (ps.map (·.name)).foldl addTitle [] := by
  induction ps using List.reverseRecOn with
  | nil => rfl
  | append_singleton ps p ih =>
    rw [firsts_concat, List.map_append, List.foldl_append, ← ih, addFirst, List.map_singleton,
      List.foldl_cons, List.foldl_nil, addTitle]
    split
    · rfl
    · rw [List.map_append, List.map_singleton]

theorem pairwise_idxOf_namesUnder (ps : List Placement) (title : String) :
    (namesUnder ps title).Pairwise fun m n =>
      (ps.map (·.name)).idxOf m < (ps.map (·.name)).idxOf n := by
  have hfirsts := pairwise_idxOf_firstSeen (ps.map (·.name))
  rw [← names_firsts] at hfirsts
  exact hfirsts.sublist (List.filter_sublist.map _)

def visibleTitles (o : Options) (c : Source.Compound) : List String :=
  c.sections.filterMap (titleOf? o)

theorem readTitles_eq {o : Options} {c : Source.Compound} (h : kindError? o c = none) :
    readTitles o c = (visibleTitles o c).foldl addTitle [] := by
  have h := (kindError?_eq_none_iff o c).1 h
  suffices hshown : (shownSections o.sectionKinds c.sections).1.map Prod.fst =
      visibleTitles o c by rw [readTitles, hshown]
  unfold visibleTitles
  generalize c.sections = ss at h
  induction ss with
  | nil => rfl
  | cons s ss ih =>
    obtain ⟨title, hkind⟩ := h s List.mem_cons_self
    have ih := ih fun t ht => h t (List.mem_cons_of_mem _ ht)
    have htitle : titleOf? o s = shownTitle? title s.header := by rw [titleOf?, hkind]; rfl
    rw [shownSections, classifySection, hkind, List.filterMap_cons, htitle]
    simp only
    cases shownTitle? title s.header with
    | none => exact ih
    | some t => rw [← ih]; rfl

/-! ## Pages in order -/

/-- One section stands before another: deprecated sections come last, then the line counts, then
the place where a title comes first. -/
def Section.Precedes (titles : List String) (s t : Section) : Prop :=
  isDeprecated s.title = false ∧ isDeprecated t.title = true ∨
    isDeprecated s.title = isDeprecated t.title ∧
      (s.line < t.line ∨ s.line = t.line ∧ titles.idxOf s.title < titles.idxOf t.title)

def Overload.Precedes (names : List String) (u v : Overload) : Prop :=
  u.line < v.line ∨ u.line = v.line ∧ names.idxOf u.name < names.idxOf v.name

/-- A page in order, by the titles and the names as they come in the source. -/
structure Compound.InOrder (titles names : List String) (p : Compound) : Prop where
  sections : p.sections.Pairwise (Section.Precedes titles)
  section_line : ∀ s ∈ p.sections, ((p.listed s).map (·.line)).min? = some s.line
  listed : ∀ s ∈ p.sections, (p.listed s).Pairwise (Overload.Precedes names)
  overload_line : ∀ u ∈ p.overloads, (u.members.map (·.line)).min? = some u.line
  overloads : (p.overloads.map (·.name)).Pairwise (· < ·)
  nodup_anchors : (p.overloads.map (·.anchor)).Nodup

/-! ## The overloads of a section -/

theorem min?_map_of_ascending {α : Type} {key : α → Int} {l : List α}
    (h : l.Pairwise fun a b => key a ≤ key b) : (l.map key).min? = (l.map key).head? := by
  cases l with
  | nil => rfl
  | cons a l =>
    refine List.min?_eq_some_iff.2 ⟨List.mem_cons_self, fun k hk => ?_⟩
    rcases List.mem_cons.1 hk with rfl | hk
    · exact Int.le_refl _
    · obtain ⟨b, hb, rfl⟩ := List.mem_map.1 hk
      exact List.rel_of_pairwise_cons h hb

theorem pairwise_located (ps : List Placement) (title : String) :
    (located (orderedOverloads ps) (namesUnder ps title)).Pairwise fun x y =>
      x.1.line ≤ y.1.line ∧ x.1.Precedes (ps.map (·.name)) y.1 := by
  have hseen : ((namesUnder ps title).filterMap (locate (orderedOverloads ps))).Pairwise fun x y =>
      (ps.map (·.name)).idxOf x.1.name < (ps.map (·.name)).idxOf y.1.name := by
    refine List.pairwise_filterMap.2 ((pairwise_idxOf_namesUnder ps title).imp ?_)
    intro m n hlt x hx y hy
    rwa [(locate_some hx).2, (locate_some hy).2]
  refine (pairwise_mergeSort_stable (keyLe_trans _) (keyLe_total _) hseen).imp ?_
  rintro x y ⟨hle, htie⟩
  simp only [keyLe, decide_eq_true_eq] at hle htie
  refine ⟨hle, ?_⟩
  rcases Int.lt_or_eq_of_le hle with hlt | heq
  · exact .inl hlt
  · exact .inr ⟨heq, htie (Int.le_of_eq heq.symm)⟩

section
variable {o : Options} {c : Source.Compound} (h : kindError? o c = none)
include h

theorem listed_groupedPage_pairwise {s : Section} (hs : s ∈ (groupedPage o c).sections) :
    ((groupedPage o c).listed s).Pairwise
      (Overload.Precedes ((placements o c).map (·.name))) := by
  rw [(mem_sections_groupedPage h hs).2]
  exact List.pairwise_map.2 ((pairwise_located _ _).imp And.right)

/-- A section stands where the first of its overloads does. -/
theorem line_section_groupedPage {s : Section} (hs : s ∈ (groupedPage o c).sections) :
    (((groupedPage o c).listed s).map (·.line)).min? = some s.line := by
  obtain ⟨hnames, hlisted⟩ := mem_sections_groupedPage h hs
  have hline : s.line = ((located (orderedOverloads (placements o c))
      (namesUnder (placements o c) s.title)).head?.map (·.1.line)).getD 0 := by
    rw [groupedPage_of_none h] at hs
    obtain ⟨t, -, rfl⟩ := mem_sections.1 hs
    rfl
  have hascending : ((groupedPage o c).listed s).Pairwise fun u v => u.line ≤ v.line := by
    rw [hlisted]
    exact List.pairwise_map.2 ((pairwise_located _ _).imp And.left)
  rw [min?_map_of_ascending hascending, hlisted, hline]
  have hne := located_namesUnder_ne_nil hnames
  revert hne
  cases located (orderedOverloads (placements o c)) (namesUnder (placements o c) s.title) with
  | nil => exact fun hne => absurd rfl hne
  | cons x xs => exact fun _ => rfl

/-- Sections that tie stand as their titles first came. -/
theorem sections_groupedPage_pairwise :
    (groupedPage o c).sections.Pairwise (Section.Precedes (visibleTitles o c)) := by
  have hseen : ((shownTitles (readTitles o c) (placements o c)).map fun t =>
      sectionOf (orderedOverloads (placements o c)) t (namesUnder (placements o c) t)).Pairwise
      fun s t => (visibleTitles o c).idxOf s.title < (visibleTitles o c).idxOf t.title := by
    refine List.pairwise_map.2 ?_
    have hfirst := pairwise_idxOf_firstSeen (visibleTitles o c)
    rw [← readTitles_eq h] at hfirst
    exact hfirst.sublist List.filter_sublist
  rw [groupedPage_of_none h, sections_ofPlacements]
  refine (pairwise_mergeSort_stable sectionLe_trans sectionLe_total hseen).imp ?_
  rintro s t ⟨hle, htie⟩
  rcases sectionLe_iff.1 hle with hdeprecated | ⟨hsame, hlines⟩
  · exact .inl hdeprecated
  · refine .inr ⟨hsame, ?_⟩
    rcases Int.lt_or_eq_of_le hlines with hlt | heq
    · exact .inl hlt
    · exact .inr ⟨heq, htie (sectionLe_iff.2 (.inr ⟨hsame.symm, Int.le_of_eq heq.symm⟩))⟩

end

/-! ## The flat list -/

theorem names_orderedOverloads_pairwise (ps : List Placement) :
    ((orderedOverloads ps).map (·.name)).Pairwise (· < ·) := by
  have hnodup := nodup_names_orderedOverloads ps
  have hsorted : ((orderedOverloads ps).map (·.name)).Pairwise (· ≤ ·) := by
    rw [orderedOverloads, map_anchored _ fun _ _ => rfl]
    refine List.pairwise_map.2 ((List.pairwise_mergeSort nameLe_trans nameLe_total _).imp ?_)
    exact fun hle => of_decide_eq_true hle
  refine (hsorted.and hnodup).imp fun hboth => ?_
  obtain ⟨hle, hne⟩ := hboth
  exact Decidable.not_not.1 fun hlt => hne (String.le_antisymm hle (String.not_lt.1 hlt))

theorem anchors_orderedOverloads (ps : List Placement) :
    (orderedOverloads ps).map (·.anchor) =
      (({} : Slugger).slugs ((orderedOverloads ps).map (·.name))).map ("#" ++ ·) := by
  rw [orderedOverloads, anchors_anchored, map_anchored _ fun _ _ => rfl]

theorem anchors_eq_of_names {ps qs : List Placement}
    (h : ∀ n, n ∈ (orderedOverloads ps).map (·.name) ↔ n ∈ (orderedOverloads qs).map (·.name)) :
    (orderedOverloads ps).map (·.anchor) = (orderedOverloads qs).map (·.anchor) := by
  have hperm := (List.perm_ext_iff_of_nodup (nodup_names_orderedOverloads ps)
    (nodup_names_orderedOverloads qs)).2 h
  have hnames : (orderedOverloads ps).map (·.name) = (orderedOverloads qs).map (·.name) := by
    refine hperm.eq_of_pairwise (fun m n _ _ hmn hnm => ?_) (names_orderedOverloads_pairwise ps)
      (names_orderedOverloads_pairwise qs)
    exact absurd hmn (String.lt_asymm hnm)
  rw [anchors_orderedOverloads, anchors_orderedOverloads, hnames]

/-! ## Pages -/

theorem inOrder_groupedPage {o : Options} {c : Source.Compound} (h : kindError? o c = none) :
    (groupedPage o c).InOrder (visibleTitles o c) ((placements o c).map (·.name)) where
  sections := sections_groupedPage_pairwise h
  section_line _ hs := line_section_groupedPage h hs
  listed _ hs := listed_groupedPage_pairwise h hs
  overload_line u hu := by
    rw [overloads_groupedPage h] at hu
    have hlines : u.members.map (·.line) = (u.members.map (·.source)).map (·.line) := by
      rw [List.map_map]
      rfl
    rw [hlines, sources_orderedOverloads hu, min?_eq_of_perm ((List.mergeSort_perm ..).map _)]
    exact line_orderedOverloads hu
  overloads := by
    rw [overloads_groupedPage h]
    exact names_orderedOverloads_pairwise _
  nodup_anchors := (complete_groupedPage h).nodup_anchors

theorem mem_names_groupedPage {o : Options} {c : Source.Compound} (h : kindError? o c = none)
    {n : String} :
    n ∈ (groupedPage o c).overloads.map (·.name) ↔ n ∈ (placements o c).map (·.name) := by
  rw [(names_groupedPage o c).mem_iff, mem_names_firsts, readPlacements_eq o c h]

theorem Compound.InOrder.documented {titles names : List String} {p : Compound}
    (h : p.InOrder titles names) (b : Builder) (c : Source.Compound) :
    (b.documented c p).InOrder titles names where
  sections := h.sections
  section_line s hs := by
    rw [listed_documented, List.map_map]
    exact h.section_line s hs
  listed s hs := by
    rw [listed_documented]
    exact List.pairwise_map.2 (h.listed s hs)
  overload_line u hu := by
    rw [Builder.documented_overloads] at hu
    obtain ⟨v, hv, rfl⟩ := List.mem_map.1 hu
    have hlines : (Builder.documentOverload b.resolver p v).members.map (·.line) =
        v.members.map (·.line) := by
      rw [members_documentOverload, List.map_map, List.map_map]
      rfl
    rw [hlines]
    exact h.overload_line v hv
  overloads := by
    rw [b.map_documented_overloads c p fun _ => rfl]
    exact h.overloads
  nodup_anchors := by
    rw [b.map_documented_overloads c p fun _ => rfl]
    exact h.nodup_anchors

namespace Builder

theorem Sound.lookup_group {b b' : Builder} {o : Options} {whole : List String}
    (hb : b.Sound o whole) {c : Source.Compound} (h : b.group c = (b', none)) :
    kindError? o c = none ∧ b'.compounds.lookup (pageName o c) = some (groupedPage o c) := by
  obtain ⟨hkind, hfree, rfl⟩ := hb.linked.group_none h
  rw [hb.options] at hkind hfree ⊢
  refine ⟨hkind, ?_⟩
  rw [← page_groupedPage, lookup_enter_self]
  rwa [page_groupedPage]

/-- A compound that is grouped has a page in order, also with its texts, and the anchors on it
depend on the names of its overloads and on nothing else. -/
theorem page_in_order (o : Options) (history : List Call) (c : Source.Compound) (b : Builder)
    (h : ((fresh o).calls history).group c = (b, none)) :
    ∃ p, b.compounds.lookup (pageName o c) = some p ∧
      p.InOrder (visibleTitles o c) ((placements o c).map (·.name)) ∧
      (∃ q, (b.convert c).value.compounds.lookup (pageName o c) = some q ∧
        q.InOrder (visibleTitles o c) ((placements o c).map (·.name))) ∧
      ∀ (o' : Options) (history' : List Call) (c' : Source.Compound) (b' : Builder) (p' : Compound),
        ((fresh o').calls history').group c' = (b', none) →
        b'.compounds.lookup (pageName o' c') = some p' →
        (∀ n, n ∈ p.overloads.map (·.name) ↔ n ∈ p'.overloads.map (·.name)) →
        p.overloads.map (·.anchor) = p'.overloads.map (·.anchor) := by
  have hsound := (sound_fresh o).calls history
  obtain ⟨hkind, hlookup⟩ := hsound.lookup_group h
  have horder := inOrder_groupedPage hkind
  refine ⟨groupedPage o c, hlookup, horder, ⟨_, ?_, horder.documented b c⟩, ?_⟩
  · obtain ⟨-, hfree, -⟩ := hsound.linked.group_none h
    rw [hsound.options] at hfree
    rw [hsound.linked.convert_group h, hsound.options, List.lookup_append,
      Assoc.lookup_eq_none_iff_keys.2 hfree]
    simp
  · intro o' history' c' b' p' h' hp' hnames
    obtain ⟨hkind', hlookup'⟩ := ((sound_fresh o').calls history').lookup_group h'
    obtain rfl : groupedPage o' c' = p' := Option.some.inj (hlookup'.symm.trans hp')
    rw [overloads_groupedPage hkind, overloads_groupedPage hkind'] at hnames ⊢
    exact anchors_eq_of_names hnames

/-- A class with a deprecated section, two sections at one line and two overloads at one line. -/
def desk : Source.Compound where
  id := "desk"
  kind := "class"
  name := "lib::Desk"
  sections := [
    { kind := "user-defined", header := "Deprecated members"
      members := [{ name := "drop", line := 1 }] },
    { kind := "public-func"
      members := [{ name := "put", line := 7 }, { name := "get", line := 7 }] },
    { kind := "protected-func"
      members := [{ name := "find", line := 7 }, { name := "put", line := 9 }] }]

def plainDesk : Source.Compound where
  id := "plain"
  kind := "struct"
  name := "PlainDesk"
  sections := [{
    kind := "public-func"
    members := [{ name := "find" }, { name := "get" }, { name := "put" }, { name := "drop" }] }]

theorem page_in_order_desk : ∃ b p, ((fresh {}).calls []).group desk = (b, none) ∧
    b.compounds.lookup (pageName {} desk) = some p ∧ p.sections.length = 3 ∧
    p.InOrder ["Deprecated members", "Public members", "Protected members"]
      ["drop", "put", "get", "find", "put"] ∧
    ∃ b' p', ((fresh {}).calls [.group desk]).group plainDesk = (b', none) ∧
      b'.compounds.lookup (pageName {} plainDesk) = some p' ∧
      p.overloads.map (·.anchor) = p'.overloads.map (·.anchor) := by
  have hgroup : ((fresh {}).calls []).group desk =
      ((((fresh {}).calls []).group desk).1, none) := Prod.ext rfl (by decide +kernel)
  have hgroup' : ((fresh {}).calls [.group desk]).group plainDesk =
      ((((fresh {}).calls [.group desk]).group plainDesk).1, none) :=
    Prod.ext rfl (by decide +kernel)
  obtain ⟨hkind, hlookup⟩ := ((sound_fresh {}).calls []).lookup_group hgroup
  obtain ⟨hkind', hlookup'⟩ := ((sound_fresh {}).calls [.group desk]).lookup_group hgroup'
  obtain ⟨p, hp, horder, -, hanchors⟩ := page_in_order {} [] desk _ hgroup
  obtain rfl : groupedPage {} desk = p := Option.some.inj (hlookup.symm.trans hp)
  have hanchors := hanchors {} [.group desk] plainDesk _ _ hgroup' hlookup' fun n => by
    rw [mem_names_groupedPage hkind, mem_names_groupedPage hkind']
    have hnames : (placements {} desk).map (·.name) = ["drop", "put", "get", "find", "put"] := by
      decide +kernel
    have hnames' : (placements {} plainDesk).map (·.name) = ["find", "get", "put", "drop"] := by
      decide +kernel
    rw [hnames, hnames']
    simp only [List.mem_cons, List.not_mem_nil, or_false]
    tauto
  have hlength : (groupedPage {} desk).sections.length = 3 := by
    rw [groupedPage_of_none hkind, sections_ofPlacements, List.length_mergeSort, List.length_map]
    decide +kernel
  exact ⟨_, _, hgroup, hp, hlength, horder, _, _, hgroup', hlookup', hanchors⟩

end Builder

end DoxPages.Docs
