import DoxPages.Proofs.Docs.Placement
import DoxPages.Proofs.Docs.Slugs
import DoxPages.Proofs.Sorting
import Mathlib.Data.List.Nodup

/-!
# Overloads and sections in order

Putting overloads in order changes their places and anchors and nothing else, and
no two anchors are the same. Sections hold positions in that order; over all
sections every position comes up once.
-/

namespace DoxPages.Docs.Grouping

open Placement

/-! ## Order by name -/

abbrev nameLe (a b : Overload) : Bool := decide (a.name ≤ b.name)

theorem nameLe_trans (a b c : Overload) (hab : nameLe a b = true) (hbc : nameLe b c = true) :
    nameLe a c = true := by
  simp only [nameLe, decide_eq_true_eq] at *
  exact String.le_trans hab hbc

theorem nameLe_total (a b : Overload) : (nameLe a b || nameLe b a) = true := by
  simp only [nameLe, Bool.or_eq_true, decide_eq_true_eq]
  exact String.le_total a.name b.name

section
variable {β : Type} (os : List Overload)

theorem length_zip_slugs :
    (os.mergeSort nameLe).length =
      (({} : Slugger).slugs ((os.mergeSort nameLe).map (·.name))).length := by
  rw [Slugger.length_slugs, List.length_map]

theorem map_anchored {f : Overload → β} (hf : ∀ o a, f { o with anchor := a } = f o) :
    (anchored os).map f = (os.mergeSort nameLe).map f := by
  have hfst := List.map_fst_zip (Nat.le_of_eq (length_zip_slugs os))
  unfold anchored
  simp only
  conv => rhs; rw [← hfst]
  rw [List.map_map, List.map_map]
  exact List.map_congr_left fun x _ => hf x.1 _

theorem map_anchored_perm {f : Overload → β} (hf : ∀ o a, f { o with anchor := a } = f o) :
    ((anchored os).map f).Perm (os.map f) := by
  rw [map_anchored os hf]
  exact (List.mergeSort_perm ..).map f

theorem anchors_anchored :
    (anchored os).map (·.anchor) =
      (({} : Slugger).slugs ((os.mergeSort nameLe).map (·.name))).map ("#" ++ ·) := by
  have hsnd := List.map_snd_zip (Nat.le_of_eq (length_zip_slugs os).symm)
  unfold anchored
  simp only
  conv => rhs; rw [← hsnd]
  rw [List.map_map, List.map_map]
  rfl

theorem nodup_anchors : ((anchored os).map (·.anchor)).Nodup := by
  rw [anchors_anchored]
  refine List.Nodup.map_on (fun x _ y _ h => ?_) (Slugger.nodup_slugs ..)
  rwa [String.append_right_inj] at h

theorem mem_anchor {o : Overload} (ho : o ∈ anchored os) {c : Char} (hc : c ∈ o.anchor.toList) :
    c = '#' ∨ Slugger.isSlugChar c = true := by
  have hmem : o.anchor ∈ (anchored os).map (·.anchor) := List.mem_map_of_mem ho
  rw [anchors_anchored] at hmem
  obtain ⟨slug, hslug, hanchor⟩ := List.mem_map.1 hmem
  rw [← hanchor, String.toList_append, List.mem_append] at hc
  rcases hc with hc | hc
  · left
    simpa using hc
  · exact .inr (Slugger.isSlugChar_slugs _ _ slug hslug c hc)

end

/-- Overloads of different names are put in order alike, however they come. -/
theorem anchored_eq_of_perm {os us : List Overload} (h : os.Perm us)
    (hnodup : (os.map (·.name)).Nodup) : anchored os = anchored us := by
  have hsort : os.mergeSort nameLe = us.mergeSort nameLe := by
    refine mergeSort_eq_of_perm nameLe_trans nameLe_total h fun a ha b hb hab hba => ?_
    simp only [nameLe, decide_eq_true_eq] at hab hba
    exact List.inj_on_of_nodup_map hnodup ha hb (String.le_antisymm hab hba)
  unfold anchored
  simp only
  rw [show os.mergeSort (fun a b => decide (a.name ≤ b.name)) = _ from hsort]

/-! ## Positions -/

def locate (flat : List Overload) (name : String) : Option (Overload × Nat) :=
  flat.zipIdx.find? fun x => x.1.name = name

def located (flat : List Overload) (names : List String) : List (Overload × Nat) :=
  (names.filterMap (locate flat)).mergeSort (keyLe fun x => x.1.line)

theorem sectionOf_eq (flat : List Overload) (title : String) (names : List String) :
    sectionOf flat title names =
      { title, line := ((located flat names).head?.map (·.1.line)).getD 0
        overloads := (located flat names).map (·.2) } := rfl

section
variable {flat : List Overload}

theorem names_zipIdx (flat : List Overload) :
    flat.zipIdx.map (fun x => x.1.name) = flat.map (·.name) := by
  have hfst : flat.zipIdx.map Prod.fst = flat := by simp
  conv => rhs; rw [← hfst, List.map_map]
  rfl

theorem locate_of_mem (hnodup : (flat.map (·.name)).Nodup) {x : Overload × Nat}
    (hx : x ∈ flat.zipIdx) : locate flat x.1.name = some x := by
  unfold locate
  cases h : flat.zipIdx.find? (fun y => y.1.name = x.1.name) with
  | none =>
    rw [List.find?_eq_none] at h
    exact absurd (decide_eq_true rfl) (h x hx)
  | some y =>
    rw [← names_zipIdx] at hnodup
    have hname : y.1.name = x.1.name := by simpa using List.find?_some h
    rw [List.inj_on_of_nodup_map hnodup (List.mem_of_find?_eq_some h) hx hname]

theorem locate_some {name : String} {x : Overload × Nat} (h : locate flat name = some x) :
    x ∈ flat.zipIdx ∧ x.1.name = name :=
  ⟨List.mem_of_find?_eq_some h, by simpa using List.find?_some h⟩

theorem filterMap_locate_names (hnodup : (flat.map (·.name)).Nodup) :
    (flat.map (·.name)).filterMap (locate flat) = flat.zipIdx := by
  rw [← names_zipIdx, List.filterMap_map]
  conv => rhs; rw [← List.filterMap_some (l := flat.zipIdx)]
  exact List.filterMap_congr fun x hx => locate_of_mem hnodup hx

theorem mem_located {names : List String} {x : Overload × Nat} :
    x ∈ located flat names ↔ ∃ n ∈ names, locate flat n = some x := by
  rw [located, List.mem_mergeSort, List.mem_filterMap]

theorem getElem?_of_mem_located {names : List String} {x : Overload × Nat}
    (h : x ∈ located flat names) : flat[x.2]? = some x.1 := by
  obtain ⟨n, -, hn⟩ := mem_located.1 h
  exact List.mem_zipIdx_iff_getElem?.1 (locate_some hn).1

theorem located_ne_nil (hnodup : (flat.map (·.name)).Nodup) {names : List String} {n : String}
    (hn : n ∈ names) (hflat : n ∈ flat.map (·.name)) : located flat names ≠ [] := by
  rw [← names_zipIdx] at hflat
  obtain ⟨x, hx, rfl⟩ := List.mem_map.1 hflat
  exact List.ne_nil_of_mem (mem_located.2 ⟨x.1.name, hn, locate_of_mem hnodup hx⟩)

/-- A section that lists something starts where one of its overloads does. -/
theorem line_sectionOf {names : List String} (h : located flat names ≠ []) (title : String) :
    ∃ x ∈ located flat names, (sectionOf flat title names).line = x.1.line := by
  rw [sectionOf_eq]
  revert h
  cases located flat names with
  | nil => exact fun h => absurd rfl h
  | cons x xs => exact fun _ => ⟨x, List.mem_cons_self, rfl⟩

theorem filterMap_getElem?_located (names : List String) :
    ((located flat names).map (·.2)).filterMap (fun i => flat[i]?) =
      (located flat names).map (·.1) := by
  rw [List.filterMap_map, ← List.filterMap_eq_map]
  exact List.filterMap_congr fun x hx => getElem?_of_mem_located hx

theorem positions_zipIdx (flat : List Overload) :
    flat.zipIdx.map (·.2) = List.range flat.length := by
  simp [List.range_eq_range']

theorem range_perm_of_names_perm (hnodup : (flat.map (·.name)).Nodup) {names : List String}
    (h : names.Perm (flat.map (·.name))) :
    ((names.filterMap (locate flat)).map (·.2)).Perm (List.range flat.length) := by
  have hperm := (h.filterMap (locate flat)).map (·.2)
  rw [filterMap_locate_names hnodup] at hperm
  rwa [positions_zipIdx] at hperm

/-- Positions in a list that come up once each give the list back. -/
theorem filterMap_getElem?_perm {is : List Nat} (h : is.Perm (List.range flat.length)) :
    (is.filterMap fun i => flat[i]?).Perm flat := by
  have hrange : (List.range flat.length).filterMap (fun i => flat[i]?) = flat := by
    have hfst : flat.zipIdx.map (·.1) = flat := by simp
    rw [← positions_zipIdx, List.filterMap_map]
    conv => rhs; rw [← hfst, ← List.filterMap_eq_map]
    exact List.filterMap_congr fun x hx => List.mem_zipIdx_iff_getElem?.1 hx
  have hperm := h.filterMap fun i => flat[i]?
  rwa [hrange] at hperm

end

/-! ## Sections -/

theorem flatMap_filter_perm {α : Type} {key : α → String} {ts : List String} (hnodup : ts.Nodup)
    {l : List α} (h : ∀ a ∈ l, key a ∈ ts) :
    (ts.flatMap fun t => l.filter fun a => key a = t).Perm l := by
  induction ts generalizing l with
  | nil =>
    cases l with
    | nil => exact List.Perm.refl _
    | cons a l => exact absurd (h a List.mem_cons_self) List.not_mem_nil
  | cons t ts ih =>
    rw [List.nodup_cons] at hnodup
    have hrest : (ts.flatMap fun u => l.filter fun a => key a = u) =
        ts.flatMap fun u => (l.filter fun a => !decide (key a = t)).filter fun a => key a = u := by
      rw [List.flatMap_def, List.flatMap_def]
      congr 1
      refine List.map_congr_left fun u hu => ?_
      rw [List.filter_filter]
      refine List.filter_congr fun a _ => ?_
      by_cases hkey : key a = u
      · have hne : key a ≠ t := fun ht => hnodup.1 (ht ▸ hkey ▸ hu)
        simp [hkey, hkey ▸ hne]
      · simp [hkey]
    rw [List.flatMap_cons, hrest]
    refine (List.Perm.append_left _ (ih hnodup.2 ?_)).trans (List.filter_append_perm _ l)
    intro a ha
    obtain ⟨ha, hne⟩ := List.mem_filter.1 ha
    exact (List.mem_cons.1 (h a ha)).resolve_left (by simpa using hne)

def namesUnder (ps : List Placement) (title : String) : List String :=
  ((firsts ps).filter fun p => p.title = title).map (·.name)

def shownTitles (titles : List String) (ps : List Placement) : List String :=
  titles.filter fun t => namesUnder ps t ≠ []

theorem mem_namesUnder {ps : List Placement} {title n : String} :
    n ∈ namesUnder ps title ↔ ∃ p ∈ firsts ps, p.title = title ∧ p.name = n := by
  simp only [namesUnder, List.mem_map, List.mem_filter, decide_eq_true_eq, and_assoc]

theorem nodup_namesUnder (ps : List Placement) (title : String) : (namesUnder ps title).Nodup :=
  (nodup_names_firsts ps).sublist (List.filter_sublist.map _)

theorem nodup_shownTitles {titles : List String} (h : titles.Nodup) (ps : List Placement) :
    (shownTitles titles ps).Nodup := h.filter _

theorem sections_ofPlacements (titles : List String) (ps : List Placement)
    (flat : List Overload) :
    (ofPlacements titles ps).sections flat =
      ((shownTitles titles ps).map fun t => sectionOf flat t (namesUnder ps t)).mergeSort
        sectionLe := by
  simp only [sections, ofPlacements, List.filter_map, List.map_map]
  rfl

section
variable {titles : List String} {ps : List Placement} {flat : List Overload}

theorem mem_sections {s : Section} :
    s ∈ (ofPlacements titles ps).sections flat ↔
      ∃ t ∈ shownTitles titles ps, sectionOf flat t (namesUnder ps t) = s := by
  rw [sections_ofPlacements, List.mem_mergeSort, List.mem_map]

theorem nodup_section_titles (hnodup : titles.Nodup) :
    (((ofPlacements titles ps).sections flat).map (·.title)).Nodup := by
  rw [sections_ofPlacements]
  refine ((List.mergeSort_perm ..).map fun s : Section => s.title).nodup_iff.2 ?_
  have htitles : ((shownTitles titles ps).map fun t => sectionOf flat t (namesUnder ps t)).map
      (fun s => s.title) = shownTitles titles ps := by
    rw [List.map_map]
    exact List.map_id _
  rw [htitles]
  exact nodup_shownTitles hnodup ps

theorem flatMap_namesUnder_perm (hnodup : titles.Nodup) (htitles : ∀ p ∈ ps, p.title ∈ titles) :
    ((shownTitles titles ps).flatMap (namesUnder ps)).Perm ((firsts ps).map (·.name)) := by
  have hshown : (shownTitles titles ps).flatMap (namesUnder ps) =
      titles.flatMap (namesUnder ps) := by
    unfold shownTitles
    clear hnodup htitles
    induction titles with
    | nil => rfl
    | cons t ts ih =>
      rw [List.filter_cons, List.flatMap_cons, ← ih]
      by_cases ht : namesUnder ps t = [] <;> simp [ht]
  have hmap : titles.flatMap (namesUnder ps) =
      (titles.flatMap fun t => (firsts ps).filter fun p => p.title = t).map (·.name) := by
    rw [List.map_flatMap]
    rfl
  rw [hshown, hmap]
  exact (flatMap_filter_perm hnodup fun p hp => htitles p (mem_of_mem_firsts hp)).map _

theorem flatMap_overloads_perm (hnodup : titles.Nodup) (htitles : ∀ p ∈ ps, p.title ∈ titles)
    (hflat : (flat.map (·.name)).Perm ((firsts ps).map (·.name))) :
    (((ofPlacements titles ps).sections flat).flatMap (·.overloads)).Perm
      (List.range flat.length) := by
  have hnames : (flat.map (·.name)).Nodup := hflat.nodup_iff.2 (nodup_names_firsts ps)
  have hsections : (((shownTitles titles ps).map fun t =>
      sectionOf flat t (namesUnder ps t)).flatMap (·.overloads)).Perm
      ((((shownTitles titles ps).flatMap (namesUnder ps)).filterMap (locate flat)).map (·.2)) := by
    rw [List.flatMap_map, List.filterMap_flatMap, List.map_flatMap]
    refine List.Perm.flatMap_left _ fun t _ => ?_
    exact (List.mergeSort_perm ..).map _
  rw [sections_ofPlacements]
  refine ((List.mergeSort_perm ..).flatMap_right _).trans (hsections.trans ?_)
  exact range_perm_of_names_perm hnames
    ((flatMap_namesUnder_perm hnodup htitles).trans hflat.symm)

end

end DoxPages.Docs.Grouping
