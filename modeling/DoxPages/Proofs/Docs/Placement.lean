import DoxPages.Docs.Grouping
import Mathlib.Data.List.Induction

/-!
# Grouping as a function of placements

A placement is a member with the name it goes under and the title it stands
under. What grouping has read is determined by the list of placements: each name
opens an overload where it comes first, and the overload gathers all members of
that name. `addSections_eq` says so for sections read to the end or up to an
unknown kind.
-/

namespace DoxPages.Docs

/-! ## Overloads from their members -/

def Overload.gather (name : String) (members : List Source.Member) : Overload where
  name
  line := ((members.map (·.line)).min?).getD 0
  members := members.map fun m => { source := m }

theorem min?_concat {l : List Int} (h : l ≠ []) (x : Int) :
    ((l ++ [x]).min?).getD 0 = min (l.min?.getD 0) x := by
  cases l with
  | nil => exact absurd rfl h
  | cons a l =>
    rw [List.cons_append, List.min?_cons', List.min?_cons', List.foldl_append]
    rfl

theorem Grouping.join_gather {members : List Source.Member} (h : members ≠ []) (name : String)
    (m : Source.Member) : join m (.gather name members) = .gather name (members ++ [m]) := by
  have hline := min?_concat (l := members.map (·.line)) (by simpa using h) m.line
  simp only [join, Overload.gather, List.map_append, List.map_cons, List.map_nil, hline]

theorem Grouping.join_first (name : String) (m : Source.Member) :
    join m { name, line := m.line } = .gather name [m] := by
  simp [join, Overload.gather]

/-! ## Placements -/

/-- A member, the name it goes under and the title of its section. -/
structure Placement where
  title : String
  name : String
  member : Source.Member

namespace Placement

def membersOf (ps : List Placement) (name : String) : List Source.Member :=
  (ps.filter fun p => p.name = name).map (·.member)

def addFirst (fs : List Placement) (p : Placement) : List Placement :=
  if p.name ∈ fs.map (·.name) then fs else fs ++ [p]

def firsts (ps : List Placement) : List Placement := ps.foldl addFirst []

variable {ps : List Placement} {p : Placement} {n : String}

theorem firsts_concat (ps : List Placement) (p : Placement) :
    firsts (ps ++ [p]) = addFirst (firsts ps) p := by
  simp [firsts]

theorem mem_names_addFirst {fs : List Placement} :
    n ∈ (addFirst fs p).map (·.name) ↔ n ∈ fs.map (·.name) ∨ n = p.name := by
  unfold addFirst
  split
  · rename_i h
    constructor
    · exact .inl
    · rintro (h' | rfl)
      · exact h'
      · exact h
  · rw [List.map_append, List.mem_append, List.map_singleton, List.mem_singleton]

theorem mem_names_firsts : n ∈ (firsts ps).map (·.name) ↔ n ∈ ps.map (·.name) := by
  induction ps using List.reverseRecOn with
  | nil => rfl
  | append_singleton ps p ih =>
    rw [firsts_concat, mem_names_addFirst, ih, List.map_append, List.mem_append,
      List.map_singleton, List.mem_singleton]

theorem nodup_names_firsts (ps : List Placement) : ((firsts ps).map (·.name)).Nodup := by
  induction ps using List.reverseRecOn with
  | nil => exact List.nodup_nil
  | append_singleton ps p ih =>
    rw [firsts_concat, addFirst]
    split
    · exact ih
    · rename_i h
      rw [List.map_append, List.nodup_append]
      refine ⟨ih, by simp, fun a ha b hb => ?_⟩
      obtain rfl : b = p.name := by simpa using hb
      rintro rfl
      exact h ha

theorem find?_of_mem_firsts (h : p ∈ firsts ps) : ps.find? (fun q => q.name = p.name) = some p := by
  induction ps using List.reverseRecOn with
  | nil => cases h
  | append_singleton ps q ih =>
    rw [firsts_concat, addFirst] at h
    rw [List.find?_append]
    split at h
    · rw [ih h, Option.some_or]
    · rename_i hnew
      rcases List.mem_append.1 h with h | h
      · rw [ih h, Option.some_or]
      · obtain rfl := List.mem_singleton.1 h
        have hnone : ps.find? (fun q => q.name = p.name) = none := by
          rw [List.find?_eq_none]
          intro r hr hname
          rw [mem_names_firsts] at hnew
          exact hnew (List.mem_map.2 ⟨r, hr, by simpa using hname⟩)
        rw [hnone, Option.none_or]
        simp

theorem mem_of_mem_firsts (h : p ∈ firsts ps) : p ∈ ps :=
  List.mem_of_find?_eq_some (find?_of_mem_firsts h)

theorem membersOf_ne_nil (h : n ∈ ps.map (·.name)) : membersOf ps n ≠ [] := by
  obtain ⟨p, hp, rfl⟩ := List.mem_map.1 h
  have hmem : p.member ∈ membersOf ps p.name :=
    List.mem_map.2 ⟨p, List.mem_filter.2 ⟨hp, by simp⟩, rfl⟩
  exact List.ne_nil_of_mem hmem

theorem membersOf_concat_self (ps : List Placement) (p : Placement) :
    membersOf (ps ++ [p]) p.name = membersOf ps p.name ++ [p.member] := by
  simp [membersOf]

theorem membersOf_concat_of_ne (h : p.name ≠ n) (ps : List Placement) :
    membersOf (ps ++ [p]) n = membersOf ps n := by
  simp [membersOf, h]

end Placement

open Placement

/-! ## What grouping has read -/

namespace Grouping

/-- The state of a grouping that has opened some titles and taken some placements. -/
def ofPlacements (titles : List String) (ps : List Placement) : Grouping where
  overloads := (firsts ps).map fun p => .gather p.name (membersOf ps p.name)
  titles := titles.map fun t => (t, ((firsts ps).filter fun p => p.title = t).map (·.name))
  visited := ps.map fun p => (p.member, p.name)

variable {titles : List String} {ps : List Placement}

theorem hasOverload_ofPlacements (titles : List String) (ps : List Placement) (n : String) :
    (ofPlacements titles ps).hasOverload n = true ↔ n ∈ (firsts ps).map (·.name) := by
  simp [hasOverload, ofPlacements, Overload.gather]

/-- Another placement joins the overload of its name, or opens one. -/
theorem addMember_ofPlacements (titles : List String) (ps : List Placement) (p : Placement) :
    (ofPlacements titles ps).addMember p.title p.name p.member =
      ofPlacements titles (ps ++ [p]) := by
  have hvisited : (ps ++ [p]).map (fun p => (p.member, p.name)) =
      ps.map (fun p => (p.member, p.name)) ++ [(p.member, p.name)] := by simp
  unfold addMember
  by_cases hname : p.name ∈ (firsts ps).map (·.name)
  · have hfirsts : firsts (ps ++ [p]) = firsts ps := by
      rw [firsts_concat, addFirst, if_pos hname]
    rw [if_pos ((hasOverload_ofPlacements ..).2 hname)]
    simp only [ofPlacements, hfirsts, hvisited, List.map_map, Grouping.mk.injEq, and_true]
    refine List.map_congr_left fun q hq => ?_
    have hq : q.name ∈ ps.map (·.name) := mem_names_firsts.1 (List.mem_map_of_mem hq)
    simp only [Function.comp_apply, Overload.gather]
    split
    · rename_i heq
      rw [heq, membersOf_concat_self]
      exact join_gather (membersOf_ne_nil (heq ▸ hq)) p.name p.member
    · rename_i hne
      rw [membersOf_concat_of_ne (Ne.symm hne)]
  · have hfirsts : firsts (ps ++ [p]) = firsts ps ++ [p] := by
      rw [firsts_concat, addFirst, if_neg hname]
    have hnil : membersOf ps p.name = [] := by
      rw [mem_names_firsts] at hname
      simp only [membersOf, List.map_eq_nil_iff, List.filter_eq_nil_iff, decide_eq_true_eq]
      exact fun q hq heq => hname (List.mem_map.2 ⟨q, hq, heq⟩)
    rw [if_neg (mt (hasOverload_ofPlacements ..).1 hname)]
    simp only [ofPlacements, hfirsts, hvisited, join_first, Assoc.adjust, List.map_append,
      List.map_map, List.map_singleton, membersOf_concat_self, hnil, List.nil_append,
      Grouping.mk.injEq, and_true]
    refine ⟨?_, List.map_congr_left fun t _ => ?_⟩
    · congr 1
      refine List.map_congr_left fun q hq => ?_
      have hne : p.name ≠ q.name := fun heq => hname (heq ▸ List.mem_map_of_mem hq)
      rw [membersOf_concat_of_ne hne]
    · by_cases ht : p.title = t <;> simp [ht, List.filter_append]

theorem openTitle_ofPlacements (h : ∀ p ∈ ps, p.title ∈ titles) (t : String) :
    (ofPlacements titles ps).openTitle t =
      ofPlacements (if t ∈ titles then titles else titles ++ [t]) ps := by
  have hkey : Assoc.hasKey t (ofPlacements titles ps).titles = true ↔ t ∈ titles := by
    rw [Assoc.hasKey_iff]
    simp [ofPlacements]
  unfold openTitle
  by_cases ht : t ∈ titles
  · rw [if_pos (hkey.2 ht), if_pos ht]
  · have hnone : (firsts ps).filter (fun p => p.title = t) = [] := by
      rw [List.filter_eq_nil_iff]
      intro p hp heq
      have hp := h p (mem_of_mem_firsts hp)
      rw [of_decide_eq_true heq] at hp
      exact ht hp
    rw [if_neg (mt hkey.1 ht), if_neg ht]
    simp [ofPlacements, hnone]

/-! ## Sections -/

abbrev Titled := String × List Source.Member

def addTitle (ts : List String) (t : String) : List String := if t ∈ ts then ts else ts ++ [t]

def place (nameOf : String → String) (sections : List Titled) : List Placement :=
  sections.flatMap fun s => s.2.map fun m => ⟨s.1, nameOf m.name, m⟩

/-- The sections that are shown, up to the first of an unknown kind. -/
def shownSections (kinds : List (String × String)) :
    List Source.Section → List Titled × Option ConfigError
  | [] => ([], none)
  | s :: ss =>
    match classifySection kinds s.kind with
    | .error e => ([], some e)
    | .ok title =>
      let rest := shownSections kinds ss
      match shownTitle? title s.header with
      | none => rest
      | some title => ((title, s.members) :: rest.1, rest.2)

theorem mem_addTitle {ts : List String} {t u : String} : u ∈ addTitle ts t ↔ u ∈ ts ∨ u = t := by
  unfold addTitle
  split
  · rename_i h
    constructor
    · exact .inl
    · rintro (h' | rfl)
      · exact h'
      · exact h
  · rw [List.mem_append, List.mem_singleton]

theorem nodup_addTitle {ts : List String} (h : ts.Nodup) (t : String) : (addTitle ts t).Nodup := by
  unfold addTitle
  split
  · exact h
  · rename_i ht
    rw [List.nodup_append]
    refine ⟨h, by simp, fun a ha b hb => ?_⟩
    rw [List.mem_singleton.1 hb]
    rintro rfl
    exact ht ha

theorem mem_openTitles {u : String} {us : List String} :
    ∀ {ts : List String}, u ∈ us.foldl addTitle ts ↔ u ∈ ts ∨ u ∈ us := by
  induction us with
  | nil => intro ts; simp
  | cons t us ih =>
    intro ts
    rw [List.foldl_cons, ih, mem_addTitle, List.mem_cons, or_assoc]

theorem nodup_openTitles {ts us : List String} (h : ts.Nodup) : (us.foldl addTitle ts).Nodup := by
  induction us generalizing ts with
  | nil => exact h
  | cons u us ih => exact ih (nodup_addTitle h u)

theorem foldl_addMember (nameOf : String → String) (titles : List String) (t : String)
    (ms : List Source.Member) (ps : List Placement) :
    ms.foldl (fun g m => g.addMember t (nameOf m.name) m) (ofPlacements titles ps) =
      ofPlacements titles (ps ++ ms.map fun m => ⟨t, nameOf m.name, m⟩) := by
  induction ms generalizing ps with
  | nil => rw [List.foldl_nil, List.map_nil, List.append_nil]
  | cons m ms ih =>
    rw [List.foldl_cons, List.map_cons,
      addMember_ofPlacements titles ps ⟨t, nameOf m.name, m⟩, ih, List.append_assoc,
      List.singleton_append]

theorem foldl_addSection (nameOf : String → String) (sections : List Titled) :
    ∀ (titles : List String) (ps : List Placement), (∀ p ∈ ps, p.title ∈ titles) →
      sections.foldl (fun g s => g.addSection nameOf s.1 s.2) (ofPlacements titles ps) =
        ofPlacements ((sections.map Prod.fst).foldl addTitle titles)
          (ps ++ place nameOf sections) := by
  induction sections with
  | nil =>
    intro titles ps _
    rw [List.foldl_nil, place, List.flatMap_nil, List.append_nil]
    rfl
  | cons s ss ih =>
    intro titles ps h
    rw [List.foldl_cons, addSection, openTitle_ofPlacements h, foldl_addMember, ← addTitle, ih]
    · rw [List.map_cons, List.foldl_cons, List.append_assoc]
      rfl
    · intro p hp
      rw [mem_addTitle]
      rcases List.mem_append.1 hp with hp | hp
      · exact .inl (h p hp)
      · obtain ⟨m, -, rfl⟩ := List.mem_map.1 hp
        exact .inr rfl

theorem addSections_eq_foldl (kinds : List (String × String)) (nameOf : String → String)
    (ss : List Source.Section) (g : Grouping) :
    addSections kinds nameOf ss g =
      ((shownSections kinds ss).1.foldl (fun g s => g.addSection nameOf s.1 s.2) g,
        (shownSections kinds ss).2) := by
  induction ss generalizing g with
  | nil => rfl
  | cons s ss ih =>
    rw [addSections, shownSections]
    cases classifySection kinds s.kind with
    | error e => rfl
    | ok title =>
      simp only
      cases shownTitle? title s.header with
      | none => exact ih g
      | some title => exact ih _

/-- What has been read is determined by the placements. -/
theorem addSections_eq (kinds : List (String × String)) (nameOf : String → String)
    (ss : List Source.Section) :
    addSections kinds nameOf ss {} =
      (ofPlacements (((shownSections kinds ss).1.map Prod.fst).foldl addTitle [])
        (place nameOf (shownSections kinds ss).1), (shownSections kinds ss).2) := by
  have h := foldl_addSection nameOf (shownSections kinds ss).1 [] [] (by simp)
  rw [List.nil_append] at h
  rw [addSections_eq_foldl]
  exact Prod.ext h rfl

end Grouping

end DoxPages.Docs
