import DoxPages.Proofs.Project.Search

/-!
# Settings of projects are usable

Settings are checked file by file, but a project has those of a chain of files, less what
is not inherited. They are well-shaped all the same, so that options can be made of them.
-/

namespace DoxPages.Project

open Settings

variable {t : Tree} {depth : Nat} {s : Settings} {dir output : Path} {ps : List Project}

theorem wellShaped_searchIn {sub : Path} (hs : s.WellShaped)
    (hbelow : ∀ {s : Settings} {output : Path} {ps : List Project}, s.WellShaped →
      (below t depth s sub output).value = some (.ok ps) → ∀ p ∈ ps, p.settings.WellShaped)
    (h : (searchIn t depth s dir output sub).value = some (.ok ps)) :
    ∀ p ∈ ps, p.settings.WellShaped := by
  cases hexists : t.exists? [] (configIn sub) with
  | false =>
    rw [searchIn_bare hexists] at h
    obtain rfl := Except.ok.inj (Option.some.inj h)
    intro p hp
    obtain rfl := List.mem_singleton.1 hp
    exact wellShaped_put (wellShaped_inherited hs) (by decide) _
  | true =>
    obtain ⟨child, hchild, hps⟩ := (searchIn_config hexists).1 h
    obtain ⟨hshape, hdistinct⟩ := hchild.valid
    exact hbelow ((wellShaped_inherited hs).merge hdistinct hshape) hps

theorem wellShaped_below (hs : s.WellShaped)
    (h : (below t depth s dir output).value = some (.ok ps)) :
    ∀ p ∈ ps, p.settings.WellShaped := by
  induction depth generalizing s dir output ps with
  | zero => cases h
  | succ depth ih =>
    by_cases hnil : listed s dir = []
    · rw [below_own hnil] at h
      obtain rfl := Except.ok.inj (Option.some.inj h)
      intro p hp
      obtain rfl := List.mem_singleton.1 hp
      exact hs
    · rw [below_listed hnil] at h
      generalize listed s dir = dirs at h
      clear hnil
      induction dirs generalizing ps with
      | nil =>
        obtain rfl := Except.ok.inj (Option.some.inj h)
        exact nofun
      | cons sub dirs ihdirs =>
        obtain ⟨found, more, hfound, hmore, rfl⟩ := inTurn_cons.1 h
        exact List.forall_mem_append.2 ⟨wellShaped_searchIn hs ih hfound, ihdirs hmore⟩

/-- Valid settings stay valid when they are laid over one another, so every project that is
discovered has valid settings, and options can be made of them. -/
theorem layered_settings_usable :
    (∀ lower upper : Settings, (Value.mapping upper).Distinct → problems lower = [] →
      problems upper = [] → problems (merge lower upper) = []) ∧
    ∀ (t : Tree) (here : Location) (config : Path) (out : Option Path) (ps : List Project),
      (discover t here config out).value = some (.ok ps) → ∀ p ∈ ps,
        problems p.settings = [] ∧ ∃ o, Options.ofSettings p.settings = .ok o := by
  constructor
  · intro lower upper hdistinct hlower hupper
    rw [problems_eq_nil_iff] at *
    exact hlower.merge hdistinct hupper
  · intro t here config out ps h p hp
    obtain ⟨c, hread⟩ := exists_reads_of_discover h
    obtain ⟨hshape, hdistinct⟩ := hread.valid
    rw [discover_of_reads hread] at h
    have hp := wellShaped_below (wellShaped_defaults.merge hdistinct hshape) h p hp
    exact ⟨problems_eq_nil_iff.2 hp, hp.options⟩

def shelfLinks : Settings × Settings :=
  ([(.string "idl_type_links", .mapping [
      (.string "link_map", .mapping [(.string "A", .string "a")]),
      (.string "operator_map", .mapping [(.string "operator[]", .string "at")])])],
    [(.string "idl_type_links", .mapping [
      (.string "link_map", .mapping [(.string "B", .string "b")]),
      (.string "operator_map", .null)])])

def shelf : Tree where
  entries :=
    [(["doxymd.yml"], .file
        "prefix: a-\nprojects: [lib, bare]\nidl_type_links: {link_map: {A: a}}" false),
      (["lib"], .dir),
      (["lib", "doxymd.yml"], .file "input: include\nidl_type_links: {link_map: {B: b}}" false),
      (["bare"], .dir)]

theorem layered_settings_usable_shelf :
    problems (merge shelfLinks.1 shelfLinks.2) = [] ∧
      ∃ ps, (discover shelf [] (.ofString "doxymd.yml") none).value = some (.ok ps) ∧
        ps.length = 2 ∧
        ∀ p ∈ ps, problems p.settings = [] ∧ ∃ o, Options.ofSettings p.settings = .ok o := by
  have hdistinct : (Value.mapping shelfLinks.2).Distinct := by
    refine .mapping (by decide) fun e he => ?_
    obtain rfl := List.mem_singleton.1 he
    refine .mapping (by decide) fun e he => ?_
    rcases List.mem_cons.1 he with rfl | he
    · refine .mapping (by decide) fun e he => ?_
      obtain rfl := List.mem_singleton.1 he
      exact .other nofun
    · obtain rfl := List.mem_singleton.1 he
      exact .other nofun
  have hlength : ((discover shelf [] (.ofString "doxymd.yml") none).projects?.map
      List.length) = some 2 := by
    decide +kernel
  obtain ⟨ps, hps, hlength⟩ := exists_found_of_map hlength
  exact ⟨layered_settings_usable.1 _ _ hdistinct (by decide) (by decide), ps, hps, hlength,
    layered_settings_usable.2 _ _ _ _ _ hps⟩

end DoxPages.Project
