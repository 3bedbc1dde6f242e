import DoxPages.Proofs.Docs.Conversion
import Mathlib.Data.List.Flatten

/-!
# Compounds in another order

Grouping compounds fails if a section kind is unknown or two of them want one page,
and otherwise enters their pages, ids and members one after another: `groupAll_none`
gives the tables. With distinct ids, look-ups in these tables do not see the order, so
a model and a reordering of it have the same documentation.
-/

namespace DoxPages

def Source.memberIds (model : Source.Model) : List String :=
  model.flatMap fun e => e.2.sections.flatMap fun s => s.members.map (·.id)

/-- Every compound of a model stands under its own id, and under no other. -/
structure Source.Keyed (model : Source.Model) : Prop where
  id_eq : ∀ e ∈ model, e.2.id = e.1
  nodup : (model.map Prod.fst).Nodup

namespace Docs

open Placement

def memberEntries (o : Options) (cs : List Source.Compound) : List (String × String × String) :=
  cs.flatMap fun c => (placements o c).map fun q => (q.member.id, pageName o c, q.name)

def groupedPages (o : Options) (cs : List Source.Compound) : List (String × Compound) :=
  cs.map fun c => (pageName o c, groupedPage o c)

theorem keys_groupedPages (o : Options) (cs : List Source.Compound) :
    (groupedPages o cs).map Prod.fst = cs.map (pageName o) := by
  rw [groupedPages, List.map_map]
  rfl

/-! ## Ids -/

theorem ids_placements_sublist (o : Options) (c : Source.Compound) :
    ((placements o c).map fun q => q.member.id).Sublist
      (c.sections.flatMap fun s => s.members.map (·.id)) := by
  rw [placements, List.map_flatMap]
  refine List.Sublist.flatMap_right _ fun s _ => ?_
  cases titleOf? o s with
  | none => exact List.nil_sublist _
  | some title =>
    rw [List.map_map]
    exact List.Sublist.refl _

theorem keys_memberEntries (o : Options) (cs : List Source.Compound) :
    (memberEntries o cs).map Prod.fst =
      cs.flatMap fun c => (placements o c).map fun q => q.member.id := by
  rw [memberEntries, List.map_flatMap]
  refine List.flatMap_congr fun c _ => ?_
  rw [List.map_map]
  rfl

section
variable {model : Source.Model} (o : Options)

theorem documentedIn_sublist :
    (Builder.documentedIn o model).Sublist (model.map Prod.snd) := List.filter_sublist

theorem nodup_ids_documentedIn (h : Source.Keyed model) :
    ((Builder.documentedIn o model).map (·.id)).Nodup := by
  have hids : (model.map Prod.snd).map (·.id) = model.map Prod.fst := by
    rw [List.map_map]
    exact List.map_congr_left h.id_eq
  exact (hids ▸ h.nodup).sublist ((documentedIn_sublist o).map _)

theorem nodup_keys_memberEntries (h : (Source.memberIds model).Nodup) :
    ((memberEntries o (Builder.documentedIn o model)).map Prod.fst).Nodup := by
  rw [keys_memberEntries]
  refine h.sublist ?_
  have hall : Source.memberIds model = (model.map Prod.snd).flatMap fun c =>
      c.sections.flatMap fun s => s.members.map (·.id) := by
    rw [List.flatMap_map]
    rfl
  rw [hall]
  refine List.Sublist.trans ?_ (List.Sublist.flatMap (documentedIn_sublist o) _)
  exact List.Sublist.flatMap_right _ fun c _ => ids_placements_sublist o c

end

namespace Builder

/-! ## Grouping many compounds -/

section
variable {b : Builder} (hb : b.Linked)
include hb

theorem Linked.group_isNone_iff (c : Source.Compound) : (b.group c).2 = none ↔
    pageName b.options c ∉ b.compounds.map Prod.fst ∧ kindError? b.options c = none := by
  constructor
  · intro h
    have hgroup : b.group c = ((b.group c).1, none) := Prod.ext rfl h
    obtain ⟨hkind, hfree, -⟩ := hb.group_none hgroup
    exact ⟨hfree, hkind⟩
  · rintro ⟨hfree, hkind⟩
    rw [← hb.aligned.origins, ← Assoc.lookup_eq_none_iff_keys] at hfree
    rw [group_eq hb.aligned hfree]
    exact hkind

/-- Compounds are grouped if their pages are free and distinct and their section kinds are
known. -/
theorem Linked.groupAll_isNone_iff (cs : List Source.Compound) :
    (b.groupAll cs).value.2 = none ↔
      (b.compounds.map Prod.fst ++ cs.map (pageName b.options)).Nodup ∧
        ∀ c ∈ cs, kindError? b.options c = none := by
  induction cs generalizing b with
  | nil =>
    refine ⟨fun _ => ⟨?_, by simp⟩, fun _ => rfl⟩
    rw [List.map_nil, List.append_nil]
    exact hb.nodup
  | cons c cs ih =>
    have hgroup := hb.group_isNone_iff c
    rw [groupAll_cons, List.forall_mem_cons]
    cases hc : b.group c with
    | mk b₁ e =>
      rw [hc] at hgroup
      cases e with
      | some e =>
        simp only [reduceCtorEq, false_iff, not_and] at hgroup ⊢
        intro hnodup hkind
        refine absurd hkind (hgroup fun hmem => ?_)
        rw [List.nodup_append] at hnodup
        exact hnodup.2.2 _ hmem _ List.mem_cons_self rfl
      | none =>
        have hlinked := hb.group c
        have hoptions := options_group b c
        obtain ⟨hkind, -, heq⟩ := hb.group_none hc
        rw [hc] at hlinked hoptions
        have hkeys : b₁.compounds.map Prod.fst =
            b.compounds.map Prod.fst ++ [pageName b.options c] := by
          rw [heq, keys_enter, page_groupedPage]
        rw [ih hlinked, hoptions, hkeys, List.append_assoc, List.singleton_append, List.map_cons]
        simp only [hkind, true_and]

theorem Linked.groupAll_none {b' : Builder} {cs : List Source.Compound}
    (h : (b.groupAll cs).value = (b', none)) :
    b'.options = b.options ∧ b'.compounds = b.compounds ++ groupedPages b.options cs ∧
      b'.pages = Assoc.putAll b.pages (cs.map fun c => (c.id, pageName b.options c)) ∧
      b'.members = Assoc.putAll b.members (memberEntries b.options cs) := by
  induction cs generalizing b with
  | nil =>
    obtain rfl : b = b' := congrArg Prod.fst h
    exact ⟨rfl, (List.append_nil _).symm, rfl, rfl⟩
  | cons c cs ih =>
    obtain ⟨b₁, hc, hrest⟩ := groupAll_cons_none h
    have hlinked := hb.group c
    have hoptions := options_group b c
    rw [hc] at hlinked hoptions
    obtain ⟨-, -, heq⟩ := hb.group_none hc
    obtain ⟨hoptions', hcompounds, hpages, hmembers⟩ := ih hlinked hrest
    rw [hoptions] at hoptions' hcompounds hpages hmembers
    refine ⟨hoptions', ?_, ?_, ?_⟩
    · rw [hcompounds, heq, Builder.enter, page_groupedPage, List.append_assoc]
      rfl
    · rw [hpages, heq, Builder.enter, page_groupedPage]
      rfl
    · rw [hmembers, heq, Builder.enter, page_groupedPage, memberEntries, memberEntries,
        List.flatMap_cons, Assoc.putAll, Assoc.putAll, Assoc.putAll, List.foldl_append]

theorem Linked.page_of_groupAll {b' : Builder} {cs : List Source.Compound}
    (h : (b.groupAll cs).value = (b', none)) (hids : (cs.map (·.id)).Nodup)
    {c : Source.Compound} (hc : c ∈ cs) : b'.pages.lookup c.id = some (pageName b.options c) := by
  obtain ⟨-, -, hpages, -⟩ := hb.groupAll_none h
  have hlookup : (cs.map fun c => (c.id, pageName b.options c)).reverse.lookup c.id =
      some (pageName b.options c) := by
    refine Assoc.lookup_of_mem ?_ ?_
    · rw [List.map_reverse, List.nodup_reverse, List.map_map]
      exact hids
    · exact List.mem_reverse.2 (List.mem_map_of_mem hc)
  rw [hpages, Assoc.lookup_putAll, hlookup, Option.some_or]

theorem Linked.groupAll {b' : Builder} {cs : List Source.Compound}
    (h : (b.groupAll cs).value = (b', none)) : b'.Linked := by
  induction cs generalizing b with
  | nil =>
    obtain rfl : b = b' := congrArg Prod.fst h
    exact hb
  | cons c cs ih =>
    obtain ⟨b₁, hc, hrest⟩ := groupAll_cons_none h
    have hlinked := hb.group c
    rw [hc] at hlinked
    exact ih hlinked hrest

end

/-! ## The order of grouping -/

theorem groupAll_isNone_perm (o : Options) {cs cs' : List Source.Compound} (h : cs.Perm cs') :
    ((fresh o).groupAll cs).value.2 = none ↔ ((fresh o).groupAll cs').value.2 = none := by
  rw [(linked_fresh o).groupAll_isNone_iff, (linked_fresh o).groupAll_isNone_iff]
  refine and_congr ?_ ?_
  · exact ((h.map _).append_left _).nodup_iff
  · simp only [h.mem_iff]

theorem lookup_putAll_nil_perm {β : Type} {t u : List (String × β)} (h : t.Perm u)
    (hnodup : (t.map Prod.fst).Nodup) (k : String) :
    (Assoc.putAll [] t).lookup k = (Assoc.putAll [] u).lookup k := by
  have hreverse := (List.reverse_perm t).trans (h.trans (List.reverse_perm u).symm)
  rw [Assoc.lookup_putAll, Assoc.lookup_putAll, Assoc.lookup_eq_of_perm hreverse]
  rwa [List.map_reverse, List.nodup_reverse]

/-- Grouping in another order gives the same look-ups. -/
theorem lookups_groupAll_perm {o : Options} {cs cs' : List Source.Compound} (h : cs.Perm cs')
    (hids : (cs.map (·.id)).Nodup) (hmembers : ((memberEntries o cs).map Prod.fst).Nodup)
    {b b' : Builder} (hb : ((fresh o).groupAll cs).value = (b, none))
    (hb' : ((fresh o).groupAll cs').value = (b', none)) :
    (∀ k, b.compounds.lookup k = b'.compounds.lookup k) ∧ b.SameTargets b' := by
  have hfresh := linked_fresh o
  obtain ⟨hoptions, hcompounds, hpages, htargets⟩ := hfresh.groupAll_none hb
  obtain ⟨hoptions', hcompounds', hpages', htargets'⟩ := hfresh.groupAll_none hb'
  have hnodup := ((hfresh.groupAll_isNone_iff cs).1 (congrArg Prod.snd hb)).1
  have hlookup (k : String) : b.compounds.lookup k = b'.compounds.lookup k := by
    rw [hcompounds, hcompounds']
    refine Assoc.lookup_eq_of_perm (h.map _) ?_ k
    exact (keys_groupedPages o cs).symm ▸ hnodup
  refine ⟨hlookup, .of_lookup (hoptions.trans hoptions'.symm) hlookup (fun id => ?_) fun id => ?_⟩
  · rw [hpages, hpages']
    refine lookup_putAll_nil_perm (h.map _) ?_ id
    rw [List.map_map]
    exact hids
  · rw [htargets, htargets']
    exact lookup_putAll_nil_perm (h.flatMap_right _) hmembers id

/-! ## The order of a model -/

theorem build_eq_some {o : Options} {model : Source.Model} {b : Builder}
    (h : ((fresh o).groupAll (documentedIn o model)).value = (b, none)) :
    ((fresh o).build model).value = ((b.convertAll (documentedIn o model)).value, none) := by
  rw [build_eq, show (fresh o).options = o from rfl, h]

theorem build_ne_none {o : Options} {model : Source.Model}
    (h : ((fresh o).groupAll (documentedIn o model)).value.2 ≠ none) :
    ((fresh o).build model).value.2 ≠ none := by
  rw [build_eq, show (fresh o).options = o from rfl]
  revert h
  cases ((fresh o).groupAll (documentedIn o model)).value with
  | mk b e =>
    cases e with
    | none => exact fun h => absurd rfl h
    | some e => exact fun _ => nofun

theorem build_fails_iff (o : Options) (model : Source.Model) :
    ((fresh o).build model).value.2 ≠ none ↔
      ((fresh o).groupAll (documentedIn o model)).value.2 ≠ none := by
  refine ⟨mt fun h => ?_, build_ne_none⟩
  rw [build_eq_some (b := ((fresh o).groupAll (documentedIn o model)).value.1) (Prod.ext rfl h)]

def finishedPages (b : Builder) (cs : List Source.Compound) : List (String × Compound) :=
  cs.map fun c => (pageName b.options c, b.documented c (groupedPage b.options c))

theorem compounds_convertAll {o : Options} {cs : List Source.Compound} {b : Builder}
    (h : ((fresh o).groupAll cs).value = (b, none)) (hids : (cs.map (·.id)).Nodup) :
    (b.convertAll cs).value.compounds = b.finishedPages cs := by
  have hfresh := linked_fresh o
  obtain ⟨hoptions, hcompounds, -, -⟩ := hfresh.groupAll_none h
  have hpage {c : Source.Compound} (hc : c ∈ cs) := hfresh.page_of_groupAll h hids hc
  have hnodup : (cs.map (pageName o)).Nodup :=
    ((hfresh.groupAll_isNone_iff cs).1 (congrArg Prod.snd h)).1
  rw [(hfresh.groupAll h).convertAll_eq, hcompounds, finishedPages, hoptions]
  show (groupedPages o cs).map _ = _
  rw [groupedPages, List.map_map]
  refine List.map_congr_left fun c hc => ?_
  -- no other compound has this page, so the texts are those of the compound itself
  have hlast : b.lastOn cs (pageName o c) = some c := by
    refine lastOn_eq_some hc (hpage hc) fun d hd hpaged => ?_
    rw [hpage hd, Option.some.injEq] at hpaged
    exact List.inj_on_of_nodup_map hnodup hd hc hpaged
  simp only [Function.comp_apply, converted, hlast]

/-- Models that differ in the order of their compounds both fail or have the same pages. -/
theorem build_perm {o : Options} {model model' : Source.Model} (hkeyed : Source.Keyed model)
    (hmembers : (Source.memberIds model).Nodup) (h : model.Perm model') :
    (((fresh o).build model).value.2 ≠ none ∧ ((fresh o).build model').value.2 ≠ none) ∨
      ∃ b b', ((fresh o).build model).value = (b, none) ∧
        ((fresh o).build model').value = (b', none) ∧
        ∀ k, b.compounds.lookup k = b'.compounds.lookup k := by
  have hperm : (documentedIn o model).Perm (documentedIn o model') := (h.map _).filter _
  have hids := nodup_ids_documentedIn o hkeyed
  have hids' := ((hperm.map (·.id)).nodup_iff).1 hids
  have hnone := groupAll_isNone_perm o hperm
  cases hall : ((fresh o).groupAll (documentedIn o model)).value with
  | mk b e =>
    cases hall' : ((fresh o).groupAll (documentedIn o model')).value with
    | mk b' e' =>
      rw [hall, hall'] at hnone
      cases e with
      | some e =>
        left
        have he' : e' ≠ none := fun he => nomatch hnone.2 he
        exact ⟨build_ne_none (by rw [hall]; exact nofun), build_ne_none (by rw [hall']; exact he')⟩
      | none =>
        right
        obtain rfl : e' = none := hnone.1 rfl
        obtain ⟨-, htargets⟩ := lookups_groupAll_perm hperm hids
          (nodup_keys_memberEntries o hmembers) hall hall'
        refine ⟨_, _, build_eq_some hall, build_eq_some hall', fun k => ?_⟩
        rw [compounds_convertAll hall hids, compounds_convertAll hall' hids']
        have hpages : b'.finishedPages (documentedIn o model') =
            b.finishedPages (documentedIn o model') := by
          refine List.map_congr_left fun c _ => ?_
          rw [htargets.options, htargets.documented]
        rw [hpages]
        refine Assoc.lookup_eq_of_perm (hperm.map _) ?_ k
        have hoptions : b.options = o := ((linked_fresh o).groupAll_none hall).1
        rw [List.map_map, hoptions]
        exact (((linked_fresh o).groupAll_isNone_iff _).1 (congrArg Prod.snd hall)).1

/-- A class whose member is described by a member of the other one. -/
def shelf : Source.Compound where
  id := "shelf"
  kind := "class"
  name := "Shelf"
  sections := [{
    kind := "public-func"
    members := [{
      id := "put", name := "put"
      brief := .element "ref" [("refid", "open"), ("kindref", "member")] [.text "open"] }] }]

/-- A class derived from the first and described by its member. -/
def book : Source.Compound where
  id := "book"
  kind := "class"
  name := "Book"
  bases := [{ name := "Shelf", access := "public", refid := some "shelf" }]
  sections := [{ kind := "public-func", members := [{ id := "open", name := "open" }] }]
  brief := .element "ref" [("refid", "put"), ("kindref", "member")] [.text "put"]

end Builder

end Docs

end DoxPages
