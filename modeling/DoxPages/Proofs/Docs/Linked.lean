import DoxPages.Proofs.Docs.Calls

/-!
# The invariant of a builder

`Linked` says that the tables of a builder refer to pages it has, and to overloads
on them. Grouping and conversion keep it, even a grouping that fails halfway, and
they keep every page complete that was grouped to the end.
-/

namespace DoxPages.Docs

open Placement

namespace Compound

theorem Complete.documented {b : Builder} {c : Source.Compound} {p : Compound} (h : p.Complete) :
    (b.documented c p).Complete where
  nodup_anchors := by
    rw [b.map_documented_overloads c p fun _ => rfl]
    exact h.nodup_anchors
  anchor_chars u hu x hx := by
    rw [Builder.documented_overloads] at hu
    obtain ⟨v, hv, rfl⟩ := List.mem_map.1 hu
    exact h.anchor_chars v hv x hx
  listing := by
    rw [Builder.documented_sections, Builder.documented_overloads, List.length_map]
    exact h.listing

end Compound

namespace Builder

/-- All references in the tables of a builder lead to what it has. -/
structure Linked (b : Builder) : Prop where
  aligned : b.Aligned
  nodup : (b.compounds.map Prod.fst).Nodup
  page_eq : ∀ k p, b.compounds.lookup k = some p → p.page = k
  pages : ∀ id k, b.pages.lookup id = some k → k ∈ b.compounds.map Prod.fst
  members : ∀ id k n, b.members.lookup id = some (k, n) →
    ∃ p, b.compounds.lookup k = some p ∧ n ∈ p.overloads.map (·.name)
  bases : ∀ k p, b.compounds.lookup k = some p → ∀ base ∈ p.bases, ∀ k',
    base.page = some k' → k' ∈ b.compounds.map Prod.fst

theorem linked_fresh (o : Options) : (fresh o).Linked where
  aligned := ⟨rfl, rfl⟩
  nodup := List.nodup_nil
  page_eq _ _ h := nomatch h
  pages _ _ h := nomatch h
  members _ _ _ h := nomatch h
  bases _ _ h := nomatch h

variable {b : Builder} {c : Source.Compound}

/-! ## Grouping -/

/-- Grouping either finds the page taken or enters a page that is new. -/
theorem Linked.group_cases (hb : b.Linked) (c : Source.Compound) :
    ((b.group c).1 = b ∧ (b.group c).2 ≠ none) ∨
      (pageName b.options c ∉ b.compounds.map Prod.fst ∧
        b.group c = (b.enter c (groupedPage b.options c) (readPlacements b.options c),
          kindError? b.options c)) := by
  cases h : b.origins.lookup (pageName b.options c) with
  | some first =>
    left
    rw [group_of_taken h]
    exact ⟨rfl, nofun⟩
  | none =>
    refine .inr ⟨?_, group_eq hb.aligned h⟩
    rw [← hb.aligned.origins]
    exact Assoc.lookup_eq_none_iff_keys.1 h

theorem lookup_enter_self {p : Compound} (h : p.page ∉ b.compounds.map Prod.fst)
    (ps : List Placement) : (b.enter c p ps).compounds.lookup p.page = some p := by
  rw [enter, List.lookup_append, Assoc.lookup_eq_none_iff_keys.2 h]
  simp

theorem lookup_enter_of_ne {p : Compound} {k : String} (h : k ≠ p.page) (ps : List Placement) :
    (b.enter c p ps).compounds.lookup k = b.compounds.lookup k := by
  have hk : (k == p.page) = false := by simpa using h
  rw [enter, List.lookup_append, List.lookup_cons, hk]
  simp

theorem keys_enter (p : Compound) (ps : List Placement) :
    (b.enter c p ps).compounds.map Prod.fst = b.compounds.map Prod.fst ++ [p.page] := by
  rw [enter, List.map_append, List.map_singleton]

theorem members_enter {p : Compound} {ps : List Placement} {id k n : String}
    (h : (b.enter c p ps).members.lookup id = some (k, n)) :
    (k = p.page ∧ n ∈ ps.map (·.name)) ∨ b.members.lookup id = some (k, n) := by
  rw [enter, Assoc.lookup_putAll, Option.or_eq_some_iff] at h
  rcases h with h | ⟨-, h⟩
  · left
    have hmem := List.mem_reverse.1 (Assoc.mem_of_lookup h)
    obtain ⟨q, hq, heq⟩ := List.mem_map.1 hmem
    simp only [Prod.mk.injEq] at heq
    obtain ⟨-, rfl, rfl⟩ := heq
    exact ⟨rfl, List.mem_map_of_mem hq⟩
  · exact .inr h

theorem pages_enter {p : Compound} {ps : List Placement} {id k : String}
    (h : (b.enter c p ps).pages.lookup id = some k) : k = p.page ∨ b.pages.lookup id = some k := by
  rw [enter] at h
  by_cases hid : id = c.id
  · subst hid
    rw [Assoc.lookup_put_self] at h
    exact .inl (Option.some.inj h).symm
  · rw [Assoc.lookup_put_of_ne hid] at h
    exact .inr h

theorem Linked.enter (hb : b.Linked) {p : Compound} {ps : List Placement}
    (hfree : p.page ∉ b.compounds.map Prod.fst)
    (hnames : ∀ n ∈ ps.map (·.name), n ∈ p.overloads.map (·.name)) (hbases : p.bases = []) :
    (b.enter c p ps).Linked where
  aligned := by
    refine ⟨?_, ?_⟩
    · rw [keys_enter, ← hb.aligned.origins, Builder.enter, List.map_append, List.map_singleton]
    · rw [keys_enter, ← hb.aligned.declared, Builder.enter, List.map_append, List.map_singleton]
  nodup := by
    rw [keys_enter, List.nodup_append]
    refine ⟨hb.nodup, by simp, fun k hk j hj => ?_⟩
    rw [List.mem_singleton.1 hj]
    rintro rfl
    exact hfree hk
  page_eq k q h := by
    by_cases hk : k = p.page
    · rw [hk, lookup_enter_self hfree, Option.some.injEq] at h
      rw [hk, h]
    · rw [lookup_enter_of_ne hk] at h
      exact hb.page_eq k q h
  pages id k h := by
    rw [keys_enter, List.mem_append, List.mem_singleton]
    exact (pages_enter h).symm.imp_left (hb.pages id k)
  members id k n h := by
    rcases members_enter h with ⟨rfl, hn⟩ | h
    · exact ⟨p, lookup_enter_self hfree ps, hnames n hn⟩
    · obtain ⟨q, hq, hn⟩ := hb.members id k n h
      have hne : k ≠ p.page := by
        rintro rfl
        exact hfree (Assoc.exists_lookup_iff_keys.1 ⟨q, hq⟩)
      exact ⟨q, by rw [lookup_enter_of_ne hne, hq], hn⟩
  bases k q h base hbase k' hk' := by
    rw [keys_enter, List.mem_append]
    left
    by_cases hk : k = p.page
    · rw [hk, lookup_enter_self hfree, Option.some.injEq] at h
      rw [← h, hbases] at hbase
      cases hbase
    · rw [lookup_enter_of_ne hk] at h
      exact hb.bases k q h base hbase k' hk'

theorem Linked.group (hb : b.Linked) (c : Source.Compound) : (b.group c).1.Linked := by
  rcases hb.group_cases c with ⟨h, -⟩ | ⟨hfree, h⟩
  · rw [h]
    exact hb
  · rw [h]
    refine hb.enter (by rwa [page_groupedPage]) (fun n hn => ?_) (bases_groupedPage ..)
    exact (names_groupedPage b.options c).mem_iff.2 (mem_names_firsts.2 hn)

/-! ## Conversion -/

theorem Linked.lookup_convert (hb : b.Linked) (c : Source.Compound) (k : String) :
    (b.convert c).value.compounds.lookup k = b.compounds.lookup k ∨
      ∃ p, b.compounds.lookup k = some p ∧
        (b.convert c).value.compounds.lookup k = some (b.documented c p) := by
  rcases b.convert_cases c with h | ⟨j, p, -, hj, h⟩
  · left
    rw [h]
  · obtain rfl := hb.page_eq j p hj
    rw [h]
    by_cases hk : k = p.page
    · right
      refine ⟨p, hk ▸ hj, ?_⟩
      rw [hk, Assoc.lookup_adjust_self, hj]
      rfl
    · left
      rw [Assoc.lookup_adjust_of_ne hk]

theorem keys_convert (b : Builder) (c : Source.Compound) :
    (b.convert c).value.compounds.map Prod.fst = b.compounds.map Prod.fst := by
  rcases b.convert_cases c with h | ⟨j, p, -, -, h⟩
  · rw [h]
  · rw [h, Assoc.keys_adjust]

theorem tables_convert (b : Builder) (c : Source.Compound) :
    (b.convert c).value.pages = b.pages ∧ (b.convert c).value.members = b.members ∧
      (b.convert c).value.origins = b.origins ∧ (b.convert c).value.declared = b.declared := by
  rcases b.convert_cases c with h | ⟨j, p, -, -, h⟩
  · rw [h]
    exact ⟨rfl, rfl, rfl, rfl⟩
  · rw [h]
    exact ⟨rfl, rfl, rfl, rfl⟩

theorem base_page {ref : Source.BaseRef} {k : String} (h : (b.base ref).page = some k) :
    ∃ id, b.pages.lookup id = some k := by
  obtain ⟨id, -, hid⟩ := Option.bind_eq_some_iff.1 h
  split at hid
  · cases hid
  · exact ⟨id, hid⟩

theorem Linked.convert (hb : b.Linked) (c : Source.Compound) : (b.convert c).value.Linked := by
  have hkeys := keys_convert b c
  obtain ⟨hpages, hmembers, horigins, hdeclared⟩ := tables_convert b c
  refine
    { aligned := ⟨?_, ?_⟩, nodup := ?_, page_eq := ?_, pages := ?_, members := ?_, bases := ?_ }
  · rw [horigins, hkeys, hb.aligned.origins]
  · rw [hdeclared, hkeys, hb.aligned.declared]
  · rw [hkeys]
    exact hb.nodup
  · intro k q hq
    rcases hb.lookup_convert c k with h | ⟨p, hp, h⟩
    · exact hb.page_eq k q (h ▸ hq)
    · rw [h, Option.some.injEq] at hq
      rw [← hq, documented_page]
      exact hb.page_eq k p hp
  · rw [hpages, hkeys]
    exact hb.pages
  · intro id k n hn
    rw [hmembers] at hn
    obtain ⟨p, hp, hname⟩ := hb.members id k n hn
    rcases hb.lookup_convert c k with h | ⟨p', hp', h⟩
    · exact ⟨p, by rw [h, hp], hname⟩
    · rw [hp, Option.some.injEq] at hp'
      refine ⟨b.documented c p', h, ?_⟩
      rw [map_documented_overloads b c p' fun _ => rfl, ← hp']
      exact hname
  · intro k q hq base hbase k' hk'
    rw [hkeys]
    rcases hb.lookup_convert c k with h | ⟨p, hp, h⟩
    · exact hb.bases k q (h ▸ hq) base hbase k' hk'
    · rw [h, Option.some.injEq] at hq
      rw [← hq, documented_bases] at hbase
      obtain ⟨ref, -, rfl⟩ := List.mem_map.1 hbase
      obtain ⟨id, hid⟩ := base_page hk'
      exact hb.pages id k' hid

/-! ## One compound -/

theorem Linked.group_none (hb : b.Linked) {b' : Builder} (h : b.group c = (b', none)) :
    kindError? b.options c = none ∧ pageName b.options c ∉ b.compounds.map Prod.fst ∧
      b' = b.enter c (groupedPage b.options c) (placements b.options c) := by
  rcases hb.group_cases c with ⟨-, herror⟩ | ⟨hfree, heq⟩
  · rw [h] at herror
    exact absurd rfl herror
  · rw [h, Prod.mk.injEq] at heq
    have hkind := heq.2.symm
    rw [readPlacements_eq _ _ hkind] at heq
    exact ⟨hkind, hfree, heq.1⟩

theorem Linked.convert_group (hb : b.Linked) {b' : Builder} (h : b.group c = (b', none)) :
    (b'.convert c).value.compounds =
      b.compounds ++ [(pageName b.options c, b'.documented c (groupedPage b.options c))] := by
  obtain ⟨-, hfree, heq⟩ := hb.group_none h
  have hpage : b'.pages.lookup c.id = some (pageName b.options c) := by
    rw [heq, Builder.enter, Assoc.lookup_put_self, page_groupedPage]
  have hlookup : b'.compounds.lookup (pageName b.options c) = some (groupedPage b.options c) := by
    rw [heq, ← page_groupedPage, lookup_enter_self]
    rwa [page_groupedPage]
  rw [b'.convert_eq c _ hpage hlookup]
  simp only [heq, Builder.enter, page_groupedPage]
  exact adjust_last hfree _ _

/-! ## Pages grouped to the end -/

/-- What is known of a builder some of whose pages were grouped to the end. -/
structure Sound (o : Options) (whole : List String) (b : Builder) : Prop where
  linked : b.Linked
  options : b.options = o
  complete : ∀ k ∈ whole, ∃ p, b.compounds.lookup k = some p ∧ p.Complete

theorem sound_fresh (o : Options) : (fresh o).Sound o [] where
  linked := linked_fresh o
  options := rfl
  complete := nofun

section
variable {o : Options} {whole : List String}

theorem Sound.group (h : b.Sound o whole) (c : Source.Compound) : (b.group c).1.Sound o whole where
  linked := h.linked.group c
  options := by rw [options_group, h.options]
  complete k hk := by
    obtain ⟨p, hp, hcomplete⟩ := h.complete k hk
    rcases h.linked.group_cases c with ⟨heq, -⟩ | ⟨hfree, heq⟩
    · exact ⟨p, by rw [heq, hp], hcomplete⟩
    · have hne : k ≠ (groupedPage b.options c).page := by
        rw [page_groupedPage]
        rintro rfl
        exact hfree (Assoc.exists_lookup_iff_keys.1 ⟨p, hp⟩)
      refine ⟨p, ?_, hcomplete⟩
      rw [heq, lookup_enter_of_ne hne, hp]

/-- A grouping without an error makes one page more complete. -/
theorem Sound.group_none (h : b.Sound o whole) (hnone : (b.group c).2 = none) :
    (b.group c).1.Sound o (whole ++ [pageName o c]) where
  linked := h.linked.group c
  options := by rw [options_group, h.options]
  complete k hk := by
    rcases List.mem_append.1 hk with hk | hk
    · exact (h.group c).complete k hk
    · obtain rfl := List.mem_singleton.1 hk
      have hgroup : b.group c = ((b.group c).1, none) := Prod.ext rfl hnone
      obtain ⟨hkind, hfree, heq⟩ := h.linked.group_none hgroup
      rw [h.options] at hkind hfree heq
      refine ⟨groupedPage o c, ?_, complete_groupedPage hkind⟩
      rw [heq, ← page_groupedPage, lookup_enter_self]
      rwa [page_groupedPage]

theorem Sound.convert (h : b.Sound o whole) (c : Source.Compound) :
    (b.convert c).value.Sound o whole where
  linked := h.linked.convert c
  options := by rw [options_convert, h.options]
  complete k hk := by
    obtain ⟨p, hp, hcomplete⟩ := h.complete k hk
    rcases h.linked.lookup_convert c k with heq | ⟨q, hq, heq⟩
    · exact ⟨p, by rw [heq, hp], hcomplete⟩
    · rw [hp, Option.some.injEq] at hq
      exact ⟨b.documented c q, heq, (hq ▸ hcomplete).documented⟩

theorem Sound.groupAll (h : b.Sound o whole) (cs : List Source.Compound) :
    (b.groupAll cs).value.1.Sound o (whole ++ (b.groupedBy cs).map (pageName o)) := by
  induction cs generalizing b whole with
  | nil => rwa [groupedBy, List.map_nil, List.append_nil]
  | cons c cs ih =>
    have hstep := h.group c
    have hnone := h.group_none (c := c)
    rw [groupAll_cons, groupedBy]
    revert hstep hnone
    cases b.group c with
    | mk b' e =>
      intro hstep hnone
      cases e with
      | some e => rwa [List.map_nil, List.append_nil]
      | none =>
        have hrest := ih (hnone rfl)
        rwa [List.append_assoc] at hrest

theorem Sound.call (h : b.Sound o whole) (c : Call) :
    (b.call c).1.Sound o (whole ++ (b.groupedIn c).map (pageName o)) := by
  cases c with
  | convert c =>
    rw [groupedIn, List.map_nil, List.append_nil]
    exact h.convert c
  | group c =>
    have hall := h.groupAll [c]
    rw [groupAll_cons] at hall
    revert hall
    rw [groupedIn, Builder.call]
    cases b.group c with
    | mk b' e => cases e <;> exact id
  | build model =>
    have hall := h.groupAll (documentedIn b.options model)
    rw [groupedIn, Builder.call, build_eq]
    revert hall
    cases (b.groupAll (documentedIn b.options model)).value with
    | mk b' e =>
      intro hall
      cases e with
      | some e => exact hall
      | none => exact convertAll_induction (fun _ c h => h.convert c) hall _

theorem Sound.calls (h : b.Sound o whole) (cs : List Call) :
    (b.calls cs).Sound o (whole ++ (b.groupedOver cs).map (pageName o)) := by
  induction cs generalizing b whole with
  | nil => rwa [groupedOver, List.map_nil, List.append_nil]
  | cons c cs ih =>
    have hrest := ih (h.call c)
    rwa [List.append_assoc, ← List.map_append] at hrest

end

end Builder

end DoxPages.Docs
