import DoxPages.Proofs.Docs.GroupedPage

/-!
# Overloads of a page in order

An overload of a page holds the members of its name, by line, and stands at the
first of their lines. If no two members share a line, it does not matter in which
order they were read.
-/

namespace DoxPages.Docs

open Grouping Placement

def sortedOverload (ps : List Placement) (n : String) : Overload :=
  sortMembers (.gather n (membersOf ps n))

theorem sortedOverload_eq (ps : List Placement) (n : String) :
    sortedOverload ps n =
      { name := n
        line := ((membersOf ps n).map (·.line)).min?.getD 0
        members := ((membersOf ps n).mergeSort (keyLe (·.line))).map fun m =>
          { source := m } } := by
  have hsort := List.map_mergeSort (r := keyLe Source.Member.line) (s := keyLe Member.line)
    (f := fun m => ({ source := m } : Member)) (l := membersOf ps n) fun _ _ _ _ => rfl
  rw [hsort]
  rfl

theorem orderedOverloads_eq (ps : List Placement) :
    orderedOverloads ps = anchored (((firsts ps).map (·.name)).map (sortedOverload ps)) := by
  rw [orderedOverloads, ofPlacements, List.map_map, List.map_map]
  rfl

/-- Apart from its anchor, an overload is the one of its name. -/
theorem mem_orderedOverloads {ps : List Placement} {u : Overload} (hu : u ∈ orderedOverloads ps) :
    u.name ∈ ps.map (·.name) ∧ { u with anchor := "#" } = sortedOverload ps u.name := by
  have hperm := map_anchored_perm (((firsts ps).map (·.name)).map (sortedOverload ps))
    (f := fun u => { u with anchor := "#" }) fun _ _ => rfl
  rw [orderedOverloads_eq] at hu
  obtain ⟨v, hv, heq⟩ := List.mem_map.1 (hperm.mem_iff.1 (List.mem_map_of_mem hu))
  obtain ⟨n, hn, rfl⟩ := List.mem_map.1 hv
  obtain rfl : n = u.name := congrArg Overload.name heq
  exact ⟨mem_names_firsts.1 hn, heq.symm⟩

section
variable {ps : List Placement} {u : Overload} (hu : u ∈ orderedOverloads ps)
include hu

theorem sources_orderedOverloads :
    u.members.map (·.source) = (membersOf ps u.name).mergeSort (keyLe (·.line)) := by
  have heq := (mem_orderedOverloads hu).2
  rw [sortedOverload_eq] at heq
  have hmembers := congrArg Overload.members heq
  rw [show u.members = _ from hmembers, List.map_map]
  exact List.map_id _

theorem line_orderedOverloads : ((membersOf ps u.name).map (·.line)).min? = some u.line := by
  obtain ⟨hname, heq⟩ := mem_orderedOverloads hu
  rw [sortedOverload_eq] at heq
  have hline : u.line = ((membersOf ps u.name).map (·.line)).min?.getD 0 :=
    congrArg Overload.line heq
  rw [hline]
  cases hmin : ((membersOf ps u.name).map (·.line)).min? with
  | none =>
    rw [List.min?_eq_none_iff, List.map_eq_nil_iff] at hmin
    exact absurd hmin (membersOf_ne_nil hname)
  | some line => rfl

theorem exists_placement_at_line : ∃ p ∈ ps, p.name = u.name ∧ p.member.line = u.line := by
  have hmem := (List.min?_eq_some_iff.1 (line_orderedOverloads hu)).1
  obtain ⟨m, hm, hline⟩ := List.mem_map.1 hmem
  obtain ⟨p, hp, rfl⟩ := List.mem_map.1 hm
  obtain ⟨hp, hname⟩ := List.mem_filter.1 hp
  exact ⟨p, hp, of_decide_eq_true hname, hline⟩

end

theorem nodup_names_orderedOverloads (ps : List Placement) :
    ((orderedOverloads ps).map (·.name)).Nodup :=
  (names_orderedOverloads ps).nodup_iff.2 (nodup_names_firsts ps)

theorem located_namesUnder_ne_nil {ps : List Placement} {t : String} (h : namesUnder ps t ≠ []) :
    located (orderedOverloads ps) (namesUnder ps t) ≠ [] := by
  obtain ⟨n, hn⟩ := List.exists_mem_of_ne_nil _ h
  obtain ⟨q, hq, -, hname⟩ := mem_namesUnder.1 hn
  refine located_ne_nil (nodup_names_orderedOverloads ps) hn ?_
  exact (names_orderedOverloads ps).mem_iff.2 (hname ▸ List.mem_map_of_mem hq)

/-! ## Any order of reading -/

section
variable {ps qs : List Placement}

theorem membersOf_perm (h : ps.Perm qs) (n : String) : (membersOf ps n).Perm (membersOf qs n) :=
  (h.filter _).map _

theorem names_firsts_perm (h : ps.Perm qs) :
    ((firsts ps).map (·.name)).Perm ((firsts qs).map (·.name)) := by
  rw [List.perm_ext_iff_of_nodup (nodup_names_firsts ps) (nodup_names_firsts qs)]
  intro n
  rw [mem_names_firsts, mem_names_firsts]
  exact (h.map _).mem_iff

theorem sortedOverload_eq_of_perm (h : ps.Perm qs)
    (hlines : (ps.map fun p => p.member.line).Nodup) (n : String) :
    sortedOverload ps n = sortedOverload qs n := by
  have hmembers := membersOf_perm h n
  have hdistinct : ((membersOf ps n).map (·.line)).Nodup := by
    rw [membersOf, List.map_map]
    exact hlines.sublist (List.filter_sublist.map _)
  have hsorted : (membersOf ps n).mergeSort (keyLe (·.line)) =
      (membersOf qs n).mergeSort (keyLe (·.line)) :=
    mergeSort_keyLe_eq_of_perm hmembers fun _ ha _ hb => List.inj_on_of_nodup_map hdistinct ha hb
  rw [sortedOverload_eq, sortedOverload_eq, hsorted, min?_eq_of_perm (hmembers.map _)]

theorem orderedOverloads_eq_of_perm (h : ps.Perm qs)
    (hlines : (ps.map fun p => p.member.line).Nodup) :
    orderedOverloads ps = orderedOverloads qs := by
  have hsame : sortedOverload ps = sortedOverload qs :=
    funext fun n => sortedOverload_eq_of_perm h hlines n
  rw [orderedOverloads_eq, orderedOverloads_eq, hsame]
  refine anchored_eq_of_perm ((names_firsts_perm h).map _) ?_
  rw [List.map_map]
  exact (List.map_id _).symm ▸ nodup_names_firsts ps

end

end DoxPages.Docs
