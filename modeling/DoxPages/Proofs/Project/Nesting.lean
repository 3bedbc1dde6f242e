import DoxPages.Proofs.Files.Descent
import DoxPages.Proofs.Project.Outputs

/-!
# Outputs below the given directory

The output of a project is the directory that is given, with the outputs named on the way to
the project put behind it one by one. What is searched does not depend on the directory, so the
names are those of the leaves below the empty path, and they keep the project below whatever
directory is given if and only if they stay below (`Path.StaysBelow`). An output that is
absolute, or goes back above its start, leads elsewhere.
-/

namespace DoxPages.Project

open Settings DoxPages.Path

variable {t : Tree} {depth : Nat} {s : Settings} {dir output output' file : Path} {l m : Leaf}
  {ps : List Project}

/-! ## Leaves behind another directory -/

theorem outputBelow_join (dir output : Path) (child : Settings) (sub : Path) :
    outputBelow (dir / output) child sub = dir / outputBelow output child sub := join_assoc ..

def Leaf.behind (dir : Path) (l : Leaf) : Leaf := { l with output := dir / l.output }

theorem LeafBelow.behind (h : LeafBelow t file output l) (dir : Path) :
    LeafBelow t file (dir / output) (l.behind dir) := by
  induction h with
  | own hread hlast => exact .own hread hlast
  | bare hread hentry hmissing =>
    rw [Leaf.behind, ← outputBelow_join]
    exact .bare hread hentry hmissing
  | nested hread hentry hconfig hchild _ ih =>
    rw [← outputBelow_join] at ih
    exact .nested hread hentry hconfig hchild ih

theorem LeafBelow.exists_behind (h : LeafBelow t file (dir / output) l) :
    ∃ m, LeafBelow t file output m ∧ l = m.behind dir := by
  generalize hout : dir / output = out at h
  induction h generalizing output with
  | own hread hlast =>
    subst hout
    exact ⟨_, .own hread hlast, rfl⟩
  | bare hread hentry hmissing =>
    subst hout
    refine ⟨_, .bare hread hentry hmissing, ?_⟩
    rw [Leaf.behind, outputBelow_join]
  | nested hread hentry hconfig hchild _ ih =>
    subst hout
    obtain ⟨m, hm, rfl⟩ := ih (outputBelow_join ..).symm
    exact ⟨_, .nested hread hentry hconfig hchild hm, rfl⟩

theorem Census.mem_outputs {IsLeaf : Leaf → Prop} {above : List Settings} {leaves : List Leaf}
    (h : Census IsLeaf above leaves ps) {o : Path} :
    (∃ p ∈ ps, p.output = o) ↔ ∃ l, IsLeaf l ∧ l.output = o := by
  have houtputs : leaves.map Leaf.output = ps.map Project.output := by
    rw [← List.forall₂_eq_eq_eq, List.forall₂_map_left_iff, List.forall₂_map_right_iff]
    exact h.describes.imp fun l p hp => hp.output.symm
  rw [← List.mem_map, ← houtputs, List.mem_map]
  simp only [h.complete]

/-! ## Searches behind another directory -/

/-- Whether a search ends with projects does not depend on where they are put. -/
theorem exists_below_of_output (h : (below t depth s dir output).value = some (.ok ps)) :
    ∃ ps', (below t depth s dir output').value = some (.ok ps') := by
  induction depth generalizing s dir output output' ps with
  | zero => cases h
  | succ depth ih =>
    by_cases hnil : listed s dir = []
    · exact ⟨_, below_own hnil⟩
    · rw [below_listed hnil] at h ⊢
      refine exists_inTurn fun sub hsub => ?_
      obtain ⟨found, hfound⟩ := exists_of_inTurn h sub hsub
      cases hexists : t.exists? [] (configIn sub) with
      | false => exact ⟨_, searchIn_bare hexists⟩
      | true =>
        obtain ⟨child, hchild, hps⟩ := (searchIn_config hexists).1 hfound
        obtain ⟨ps', hps'⟩ : ∃ ps', (below t depth (merge (inherited s) child) sub
            (outputBelow output' child sub)).value = some (.ok ps') := ih hps
        exact ⟨ps', (searchIn_config hexists).2 ⟨child, hchild, hps'⟩⟩

/-! ## Discovery -/

/-- The outputs below a directory are those of the leaves below the empty path, put behind it. -/
theorem mem_outputs_discover {here : Location} {config out : Path}
    (hproper : ((⟨1, here⟩ : Path) / config).Proper)
    (h : (discover t here config (some out)).value = some (.ok ps)) (o : Path) :
    (∃ p ∈ ps, p.output = o) ↔ ∃ l, LeafBelow t (rootFile here config) {} l ∧
      (⟨1, here⟩ : Path).resolve out / l.output = o := by
  obtain ⟨c, hread⟩ := exists_reads_of_discover h
  rw [discover_of_reads hread] at h
  obtain ⟨leaves, hcensus⟩ :=
    census_below (resolved_rootFile hproper) hread (stands_root hread.valid.2) h
  rw [hcensus.mem_outputs, rootOutput]
  constructor
  · rintro ⟨l, hl, rfl⟩
    rw [← join_empty ((⟨1, here⟩ : Path).resolve out)] at hl
    obtain ⟨m, hm, rfl⟩ := hl.exists_behind
    exact ⟨m, hm, rfl⟩
  · rintro ⟨m, hm, rfl⟩
    have hl := hm.behind ((⟨1, here⟩ : Path).resolve out)
    rw [join_empty] at hl
    exact ⟨_, hl, rfl⟩

theorem exists_discover_of_output {here : Location} {config : Path} {given : Option Path}
    (h : (discover t here config given).value = some (.ok ps)) (out : Option Path) :
    ∃ ps', (discover t here config out).value = some (.ok ps') := by
  obtain ⟨c, hread⟩ := exists_reads_of_discover h
  rw [discover_of_reads hread] at h ⊢
  exact exists_below_of_output h

/-- Where discovery ends, all outputs lie in the directory that is given, whichever it is, if and
only if the outputs named on the way to each project stay below where they are put. -/
theorem outputs_inside_iff (t : Tree) (here : Location) (config : Path)
    (hproper : ((⟨1, here⟩ : Path) / config).Proper) {given : Option Path} {ps : List Project}
    (h : (discover t here config given).value = some (.ok ps)) :
    (∀ (out : Path) (ps : List Project), (discover t here config (some out)).value = some (.ok ps) →
      ∀ p ∈ ps, Inside p.output ((⟨1, here⟩ : Path).resolve out)) ↔
    ∀ l, LeafBelow t (rootFile here config) {} l → StaysBelow l.output := by
  constructor
  · intro hinside l hl
    by_contra hstays
    obtain ⟨name, hname⟩ := exists_other_name (".." :: l.output.parts)
    rw [List.mem_cons, not_or] at hname
    obtain ⟨ps, hps⟩ := exists_discover_of_output h (some (atRoot name))
    obtain ⟨p, hp, hout⟩ := (mem_outputs_discover hproper hps _).2 ⟨l, hl, rfl⟩
    have hin := hinside _ _ hps p hp
    rw [hout, resolve_atRoot hname.1] at hin
    exact not_inside_atRoot hstays hname.2 hname.1 hin
  · intro hstays out ps hps p hp
    obtain ⟨l, hl, hout⟩ := (mem_outputs_discover hproper hps p.output).1 ⟨p, hp, rfl⟩
    rw [← hout]
    exact (hstays l hl).inside _

theorem outputs_inside_iff_nestedShelves :
    (∃ ps, (discover nestedShelves [] (.ofString "doxymd.yml") none).value = some (.ok ps) ∧
      ps.length = 2) ∧
    ∀ (out : Path) (ps : List Project),
      (discover nestedShelves [] (.ofString "doxymd.yml") (some out)).value = some (.ok ps) →
      ∀ p ∈ ps, Inside p.output ((⟨1, []⟩ : Path).resolve out) := by
  have hlength : ((discover nestedShelves [] (.ofString "doxymd.yml") none).projects?.map
      List.length) = some 2 := by
    decide +kernel
  obtain ⟨ps, hps, hlength⟩ := exists_found_of_map hlength
  refine ⟨⟨ps, hps, hlength⟩, ?_⟩
  refine (outputs_inside_iff _ _ _ (Path.proper_ofString _) hps).2 fun l hl => ?_
  -- the leaves below the empty path, from a search there
  have houtputs : (below nestedShelves 3 (merge defaults (settingsIn nestedShelves ⟨1, []⟩))
      ⟨1, []⟩ {}).projects?.map (List.map Project.output) =
        some [⟨0, ["lib", "core"]⟩, ⟨0, ["bare"]⟩] := by
    decide +kernel
  obtain ⟨found, hfound, houtputs⟩ := exists_found_of_map houtputs
  have hfile : rootFile [] (.ofString "doxymd.yml") = configIn ⟨1, []⟩ := by decide
  have hresolved : (rootFile [] (.ofString "doxymd.yml")).Resolved :=
    resolved_rootFile (Path.proper_ofString _)
  obtain ⟨c, hread⟩ := exists_reads_of_discover hps
  rw [hfile] at hread hresolved hl
  rw [settingsIn_of_reads hread, ← parent_configIn ⟨1, []⟩] at hfound
  obtain ⟨leaves, hcensus⟩ := census_below hresolved hread (stands_root hread.valid.2) hfound
  obtain ⟨p, hp, hout⟩ := hcensus.mem_outputs.2 ⟨l, hl, rfl⟩
  have hmem := List.mem_map_of_mem (f := Project.output) hp
  rw [houtputs, hout] at hmem
  have hstays : ∀ o ∈ [⟨0, ["lib", "core"]⟩, ⟨0, ["bare"]⟩], StaysBelow o := by decide
  exact hstays _ hmem

def detours : Tree where
  entries :=
    [(["doxymd.yml"], .file "projects: [lib, app]" false),
      (["lib"], .dir), (["lib", "doxymd.yml"], .file "output: ../elsewhere" false),
      (["app"], .dir), (["app", "doxymd.yml"], .file "output: /elsewhere" false)]

/-- An output that goes back is not below the directory that is given, and neither is one that
stands at the root. -/
theorem not_outputs_inside_detours : ¬ ∀ (t : Tree) (here : Location) (config out : Path)
    (ps : List Project), (discover t here config (some out)).value = some (.ok ps) →
      ∀ p ∈ ps, Inside p.output ((⟨1, here⟩ : Path).resolve out) := by
  intro hclaim
  have houtputs : (discover detours [] (.ofString "doxymd.yml")
      (some (.ofString "site"))).projects?.map (List.map Project.output) =
        some [⟨1, ["site", "..", "elsewhere"]⟩, ⟨1, ["elsewhere"]⟩] := by
    decide +kernel
  obtain ⟨ps, hps, houtputs⟩ := exists_found_of_map houtputs
  have hinside := hclaim detours [] (.ofString "doxymd.yml") (.ofString "site") ps hps
  rw [← List.forall_mem_map (f := Project.output) (P := (Inside · _)), houtputs] at hinside
  revert hinside
  decide

end DoxPages.Project
