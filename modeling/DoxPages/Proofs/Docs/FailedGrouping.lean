import DoxPages.Proofs.Docs.Buildable

/-!
# What a failed grouping leaves behind

A compound whose page is taken is turned down before anything is entered. One with a
section of an unknown kind has its page by then, so it is left half grouped:
`HalfGrouped` says what is added for it and that all else stays. `group_failure` has
both, for a builder after any calls.
-/

namespace DoxPages.Docs

open Grouping Placement

def sectionMemberIds (ss : List Source.Section) : List String :=
  ss.flatMap fun s => s.members.map (·.id)

theorem shownSections_members (kinds : List (String × String)) (ss : List Source.Section) :
    ((shownSections kinds ss).1.flatMap fun t => t.2.map (·.id)).Sublist (sectionMemberIds ss) := by
  induction ss with
  | nil => exact List.Sublist.refl _
  | cons s ss ih =>
    rw [sectionMemberIds, List.flatMap_cons, ← sectionMemberIds, shownSections]
    cases classifySection kinds s.kind with
    | error e => exact List.nil_sublist _
    | ok title =>
      simp only
      cases shownTitle? title s.header with
      | none => exact ih.trans (List.sublist_append_right _ _)
      | some title => exact ih.append_left _

theorem ids_place (nameOf : String → String) (ts : List Titled) :
    (place nameOf ts).map (fun q => q.member.id) = ts.flatMap fun t => t.2.map (·.id) := by
  rw [place, List.map_flatMap]
  refine List.flatMap_congr fun t _ => ?_
  rw [List.map_map]
  rfl

namespace Builder

structure KnownUpTo (o : Options) (c : Source.Compound) (before : List Source.Section)
    (kind : String) : Prop where
  split : ∃ s after, c.sections = before ++ s :: after ∧ s.kind = kind
  known : ∀ t ∈ before, ∃ title, o.sectionKinds.lookup t.kind = some title
  unknown : o.sectionKinds.lookup kind = none

/-- The builder `b'` has a page more than `b`, for a compound of which only the sections
`before` were read. -/
structure HalfGrouped (b : Builder) (c : Source.Compound) (before : List Source.Section)
    (b' : Builder) : Prop where
  options : b'.options = b.options
  compounds : ∃ p, p.page = pageName b.options c ∧
    b'.compounds = b.compounds ++ [(pageName b.options c, p)]
  origins : b'.origins = b.origins ++ [(pageName b.options c, c.name)]
  declared : ∃ ms, (ms.map (·.id)).Sublist (sectionMemberIds before) ∧
    b'.declared = b.declared ++ [(pageName b.options c, ms)]
  page : b'.pages.lookup c.id = some (pageName b.options c)
  pages : ∀ id, id ≠ c.id → b'.pages.lookup id = b.pages.lookup id
  members : ∀ id, id ∉ sectionMemberIds before → b'.members.lookup id = b.members.lookup id
  again : b'.group c = (b', some (.pageTaken (pageName b.options c) c.name c.name))

variable {b b' : Builder} {c : Source.Compound}

theorem Linked.halfGrouped_enter (hb : b.Linked) {p : Compound} {ps : List Placement}
    {before : List Source.Section} (hpage : p.page = pageName b.options c)
    (hfree : pageName b.options c ∉ b.compounds.map Prod.fst)
    (hids : (ps.map fun q => q.member.id).Sublist (sectionMemberIds before)) :
    b.HalfGrouped c before (b.enter c p ps) where
  options := rfl
  compounds := ⟨p, hpage, by rw [Builder.enter, hpage]⟩
  origins := by rw [Builder.enter, hpage]
  declared := by
    refine ⟨ps.map (·.member), ?_, by rw [Builder.enter, hpage]⟩
    rwa [List.map_map]
  page := by rw [Builder.enter, Assoc.lookup_put_self, hpage]
  pages id hid := by rw [Builder.enter, Assoc.lookup_put_of_ne hid]
  members id hid := by
    have hnew : (ps.map fun q => (q.member.id, p.page, q.name)).reverse.lookup id = none := by
      rw [Assoc.lookup_eq_none_iff_keys, List.map_reverse, List.mem_reverse, List.map_map]
      exact fun hmem => hid (hids.subset hmem)
    rw [Builder.enter, Assoc.lookup_putAll, hnew, Option.none_or]
  again := by
    refine group_of_taken ?_
    rw [← hb.aligned.origins] at hfree
    rw [options_enter, Builder.enter, hpage, List.lookup_append,
      Assoc.lookup_eq_none_iff_keys.2 hfree]
    simp

/-- A grouping fails before or after its page is entered, and the error tells which. -/
theorem Linked.group_error (hb : b.Linked) {e : ConfigError} (h : b.group c = (b', some e)) :
    (b' = b ∧ ∃ first, b.origins.lookup (pageName b.options c) = some first ∧
      e = .pageTaken (pageName b.options c) first c.name) ∨
    ∃ before kind, e = .unknownSectionKind kind ∧ KnownUpTo b.options c before kind ∧
      b.HalfGrouped c before b' := by
  cases htaken : b.origins.lookup (pageName b.options c) with
  | some first =>
    rw [group_of_taken htaken] at h
    obtain ⟨rfl, he⟩ := Prod.mk.inj h
    exact .inl ⟨rfl, first, rfl, (Option.some.inj he).symm⟩
  | none =>
    rw [group_eq hb.aligned htaken] at h
    obtain ⟨rfl, hkind⟩ := Prod.mk.inj h
    obtain ⟨before, s, after, hsections, hknown, hunknown, rfl, hshown⟩ :=
      shownSections_of_unknown hkind
    refine .inr ⟨before, s.kind, rfl, ⟨⟨s, after, hsections, rfl⟩, hknown, hunknown⟩, ?_⟩
    refine hb.halfGrouped_enter (page_groupedPage ..) ?_ ?_
    · rw [← hb.aligned.origins]
      exact Assoc.lookup_eq_none_iff_keys.1 htaken
    · rw [readPlacements, hshown, ids_place]
      exact shownSections_members _ before

/-- A grouping that fails because its page is taken changes nothing; one that fails because
of an unknown section kind has entered a page and the members read up to there. -/
theorem group_failure (o : Options) (history : List Call) (c : Source.Compound) (b' : Builder)
    (e : ConfigError) (h : ((fresh o).calls history).group c = (b', some e)) :
    (b' = (fresh o).calls history ∧ ∃ first,
      ((fresh o).calls history).origins.lookup (pageName o c) = some first ∧
        e = .pageTaken (pageName o c) first c.name) ∨
    ∃ before kind, e = .unknownSectionKind kind ∧ KnownUpTo o c before kind ∧
      ((fresh o).calls history).HalfGrouped c before b' := by
  have hsound := (sound_fresh o).calls history
  have herror := hsound.linked.group_error h
  rwa [hsound.options] at herror

/-- A class that takes over an id and a member id of the shelf and goes on with a section of
an unknown kind. -/
def crate : Source.Compound where
  id := "shelf"
  kind := "class"
  name := "Crate"
  sections := [
    { kind := "public-func", members := [{ id := "put", name := "fill" }] },
    { kind := "odd", members := [{ id := "open", name := "open" }] }]

theorem group_failure_shelf :
    (∃ before b', ((fresh {}).calls [.group shelf, .convert shelf]).group crate =
        (b', some (.unknownSectionKind "odd")) ∧ KnownUpTo {} crate before "odd" ∧
      ((fresh {}).calls [.group shelf, .convert shelf]).HalfGrouped crate before b') ∧
    ∃ b', ((fresh {}).calls [.group shelf, .convert shelf]).group { crate with name := "SHELF" } =
        (b', some (.pageTaken "shelf" "Shelf" "SHELF")) ∧
      b' = (fresh {}).calls [.group shelf, .convert shelf] := by
  constructor
  · have herror : (((fresh {}).calls [.group shelf, .convert shelf]).group crate).2 =
        some (.unknownSectionKind "odd") := by decide +kernel
    rcases group_failure {} _ crate _ _ (Prod.ext rfl herror) with
      ⟨-, first, -, he⟩ | ⟨before, kind, he, hknown, hleft⟩
    · cases he
    · cases he
      exact ⟨before, _, Prod.ext rfl herror, hknown, hleft⟩
  · have herror : (((fresh {}).calls [.group shelf, .convert shelf]).group
        { crate with name := "SHELF" }).2 = some (.pageTaken "shelf" "Shelf" "SHELF") := by
      decide +kernel
    rcases group_failure {} _ _ _ _ (Prod.ext rfl herror) with
      ⟨hsame, -⟩ | ⟨before, kind, he, -⟩
    · exact ⟨_, Prod.ext rfl herror, hsame⟩
    · cases he

end Builder

end DoxPages.Docs
