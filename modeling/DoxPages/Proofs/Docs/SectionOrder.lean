import DoxPages.Proofs.Docs.Overloads

/-!
# Sections in order

Sections are put in order by their lines, deprecated ones last. If no two members
share a line and each name stands under one title, then the sections do not depend
on the order in which the members were read.
-/

namespace DoxPages.Docs

open Grouping Placement

/-! ## The order of sections -/

theorem sectionLe_iff {s t : Section} : sectionLe s t = true ↔
    (isDeprecated s.title = false ∧ isDeprecated t.title = true) ∨
      (isDeprecated s.title = isDeprecated t.title ∧ s.line ≤ t.line) := by
  unfold sectionLe
  cases isDeprecated s.title <;> cases isDeprecated t.title <;> simp

theorem sectionLe_trans (s t u : Section) (hst : sectionLe s t = true)
    (htu : sectionLe t u = true) : sectionLe s u = true := by
  rw [sectionLe_iff] at *
  rcases hst with ⟨hs, ht⟩ | ⟨hst, hlines⟩ <;> rcases htu with ⟨ht', hu⟩ | ⟨htu, hlines'⟩
  · exact .inl ⟨hs, hu⟩
  · exact .inl ⟨hs, htu ▸ ht⟩
  · exact .inl ⟨hst.trans ht', hu⟩
  · exact .inr ⟨hst.trans htu, Int.le_trans hlines hlines'⟩

theorem sectionLe_total (s t : Section) : (sectionLe s t || sectionLe t s) = true := by
  have hlines := Int.le_total s.line t.line
  rw [Bool.or_eq_true, sectionLe_iff, sectionLe_iff]
  cases isDeprecated s.title <;> cases isDeprecated t.title <;> simp [hlines]

theorem line_eq_of_sectionLe {s t : Section} (hst : sectionLe s t = true)
    (hts : sectionLe t s = true) : s.line = t.line := by
  rw [sectionLe_iff] at *
  cases hs : isDeprecated s.title <;> cases ht : isDeprecated t.title <;>
    simp only [hs, ht, Bool.false_eq_true, Bool.true_eq_false, false_and, and_false, and_self,
      true_and, or_self, or_false, false_or] at hst hts
  · omega
  · omega

/-! ## Sections of placements in another order -/

section
variable {ps qs : List Placement} (hlines : (ps.map fun p => p.member.line).Nodup)
include hlines

theorem name_eq_of_line {u v : Overload} (hu : u ∈ orderedOverloads ps)
    (hv : v ∈ orderedOverloads ps) (h : u.line = v.line) : u.name = v.name := by
  obtain ⟨p, hp, hpname, hpline⟩ := exists_placement_at_line hu
  obtain ⟨q, hq, hqname, hqline⟩ := exists_placement_at_line hv
  have hpq : p = q := List.inj_on_of_nodup_map hlines hp hq (by rw [hpline, hqline, h])
  rw [← hpname, ← hqname, hpq]

theorem located_eq_of_perm {names names' : List String} (h : names.Perm names') :
    located (orderedOverloads ps) names = located (orderedOverloads ps) names' := by
  have hnames : ((orderedOverloads ps).zipIdx.map fun x => x.1.name).Nodup := by
    rw [names_zipIdx]
    exact nodup_names_orderedOverloads ps
  refine mergeSort_keyLe_eq_of_perm (h.filterMap _) fun x hx y hy hline => ?_
  obtain ⟨_, -, hx⟩ := List.mem_filterMap.1 hx
  obtain ⟨_, -, hy⟩ := List.mem_filterMap.1 hy
  have hx := (locate_some hx).1
  have hy := (locate_some hy).1
  have hname := name_eq_of_line hlines (List.fst_mem_of_mem_zipIdx hx)
    (List.fst_mem_of_mem_zipIdx hy) hline
  exact List.inj_on_of_nodup_map hnames hx hy hname

theorem title_eq_of_line {t u : String} (ht : namesUnder ps t ≠ []) (hu : namesUnder ps u ≠ [])
    (h : (sectionOf (orderedOverloads ps) t (namesUnder ps t)).line =
      (sectionOf (orderedOverloads ps) u (namesUnder ps u)).line) : t = u := by
  have hfirst {w : String} (hw : namesUnder ps w ≠ []) :
      ∃ v ∈ orderedOverloads ps, v.name ∈ namesUnder ps w ∧
        (sectionOf (orderedOverloads ps) w (namesUnder ps w)).line = v.line := by
    obtain ⟨x, hx, hline⟩ := line_sectionOf (located_namesUnder_ne_nil hw) w
    obtain ⟨n, hn, hlocate⟩ := mem_located.1 hx
    obtain ⟨hx, rfl⟩ := locate_some hlocate
    exact ⟨x.1, List.fst_mem_of_mem_zipIdx hx, hn, hline⟩
  obtain ⟨v, hv, hvname, hvline⟩ := hfirst ht
  obtain ⟨w, hw, hwname, hwline⟩ := hfirst hu
  have hname := name_eq_of_line hlines hv hw (by rw [← hvline, ← hwline, h])
  obtain ⟨p, hp, rfl, hpname⟩ := mem_namesUnder.1 hvname
  obtain ⟨q, hq, rfl, hqname⟩ := mem_namesUnder.1 hwname
  have hpq : p = q :=
    List.inj_on_of_nodup_map (nodup_names_firsts ps) hp hq (by rw [hpname, hqname, hname])
  rw [hpq]

end

section
variable {ps qs : List Placement} (h : ps.Perm qs)
  (htitles : ∀ p ∈ ps, ∀ q ∈ ps, p.name = q.name → p.title = q.title)

include htitles in
theorem mem_namesUnder_iff {t n : String} :
    n ∈ namesUnder ps t ↔ ∃ p ∈ ps, p.title = t ∧ p.name = n := by
  rw [mem_namesUnder]
  constructor
  · rintro ⟨p, hp, ht, hn⟩
    exact ⟨p, mem_of_mem_firsts hp, ht, hn⟩
  · rintro ⟨p, hp, rfl, rfl⟩
    obtain ⟨q, hq, hname⟩ := List.mem_map.1 (mem_names_firsts.2 (List.mem_map_of_mem hp))
    exact ⟨q, hq, htitles q (mem_of_mem_firsts hq) p hp hname, hname⟩

include h htitles in
theorem namesUnder_perm (t : String) : (namesUnder ps t).Perm (namesUnder qs t) := by
  have htitles' : ∀ p ∈ qs, ∀ q ∈ qs, p.name = q.name → p.title = q.title :=
    fun p hp q hq => htitles p (h.mem_iff.2 hp) q (h.mem_iff.2 hq)
  rw [List.perm_ext_iff_of_nodup (nodup_namesUnder ps t) (nodup_namesUnder qs t)]
  intro n
  rw [mem_namesUnder_iff htitles, mem_namesUnder_iff htitles']
  simp only [h.mem_iff]

variable {titles titles' : List String} (hnodup : titles.Nodup) (hnodup' : titles'.Nodup)
  (hmem : ∀ p ∈ ps, p.title ∈ titles) (hmem' : ∀ p ∈ qs, p.title ∈ titles')

include hmem in
theorem mem_shownTitles {t : String} : t ∈ shownTitles titles ps ↔ namesUnder ps t ≠ [] := by
  rw [shownTitles, List.mem_filter, decide_eq_true_eq]
  refine and_iff_right_of_imp fun hne => ?_
  obtain ⟨n, hn⟩ := List.exists_mem_of_ne_nil _ hne
  obtain ⟨p, hp, rfl, -⟩ := mem_namesUnder.1 hn
  exact hmem p (mem_of_mem_firsts hp)

include h htitles hnodup hnodup' hmem hmem' in
theorem shownTitles_perm : (shownTitles titles ps).Perm (shownTitles titles' qs) := by
  rw [List.perm_ext_iff_of_nodup (nodup_shownTitles hnodup ps)
    (nodup_shownTitles hnodup' qs)]
  intro t
  have hnil : namesUnder ps t = [] ↔ namesUnder qs t = [] := by
    have hperm := namesUnder_perm h htitles t
    exact ⟨fun heq => (heq ▸ hperm).nil_eq.symm, fun heq => (heq ▸ hperm).eq_nil⟩
  rw [mem_shownTitles hmem, mem_shownTitles hmem', ne_eq, ne_eq, hnil]

variable (hlines : (ps.map fun p => p.member.line).Nodup)

include h htitles hnodup hnodup' hmem hmem' hlines in
/-- The sections of a page depend on its placements, not on their order. -/
theorem sections_eq_of_perm :
    (ofPlacements titles ps).sections (orderedOverloads ps) =
      (ofPlacements titles' qs).sections (orderedOverloads qs) := by
  have hsections : (fun t => sectionOf (orderedOverloads ps) t (namesUnder ps t)) =
      fun t => sectionOf (orderedOverloads qs) t (namesUnder qs t) := by
    funext t
    rw [← orderedOverloads_eq_of_perm h hlines, sectionOf_eq, sectionOf_eq,
      located_eq_of_perm hlines (namesUnder_perm h htitles t)]
  rw [sections_ofPlacements, sections_ofPlacements, ← hsections]
  refine mergeSort_eq_of_perm sectionLe_trans sectionLe_total
    ((shownTitles_perm h htitles hnodup hnodup' hmem hmem').map _) fun s hs s' hs' hle hle' => ?_
  obtain ⟨t, ht, rfl⟩ := List.mem_map.1 hs
  obtain ⟨u, hu, rfl⟩ := List.mem_map.1 hs'
  have htu := title_eq_of_line hlines ((mem_shownTitles hmem).1 ht) ((mem_shownTitles hmem).1 hu)
    (line_eq_of_sectionLe hle hle')
  rw [htu]

end

end DoxPages.Docs
