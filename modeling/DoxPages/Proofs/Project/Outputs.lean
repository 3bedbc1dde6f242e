import DoxPages.Proofs.Project.Leaves

/-!
# Outputs of projects

The output of a listed directory is a name below that of the file that lists it, and nothing
keeps two directories from taking one name. `Apart` says that the directories of each list
have outputs that lie in that of the list and not in one another; only in the output of a
single project another one may lie. Then the outputs of any two projects are different
directories.
-/

namespace DoxPages

namespace Project

open Settings Relation DoxPages.Path

/-! ## Outputs that are apart -/

/-- The settings of a directory, none if it has no file that can be read. -/
def settingsIn (t : Tree) (dir : Path) : Settings :=
  (Settings.read (t.read? []) (configIn dir)).toOption.getD []

def outputIn (t : Tree) (output dir : Path) : Path := outputBelow output (settingsIn t dir) dir

def IsSingle (t : Tree) (dir : Path) : Prop := listed (settingsIn t dir) dir = []

instance (t : Tree) (dir : Path) : Decidable (IsSingle t dir) :=
  inferInstanceAs (Decidable (_ = _))

/-- Nothing of the second directory is put where the first one puts something: its output
lies elsewhere, or deeper than all that a single project has. -/
def KeepsClear (t : Tree) (output dir other : Path) : Prop :=
  ¬ Inside (outputIn t output other) (outputIn t output dir) ∨
    IsSingle t dir ∧ ¬ SameDirectory (outputIn t output other) (outputIn t output dir)

instance (t : Tree) (output dir other : Path) : Decidable (KeepsClear t output dir other) :=
  inferInstanceAs (Decidable (_ ∨ _ ∧ _))

/-- The outputs below a settings file lie in its own and keep clear of each other. -/
inductive Apart (t : Tree) : (file output : Path) → Prop where
  | intro {file output : Path} {s : Settings} (read : Reads t file s)
      (inside : ∀ dir ∈ listed s file.parent, Inside (outputIn t output dir) output)
      (clear : (listed s file.parent).Pairwise fun a b =>
        KeepsClear t output a b ∧ KeepsClear t output b a)
      (below : ∀ dir ∈ listed s file.parent, t.exists? [] (configIn dir) = true →
        Apart t (configIn dir) (outputIn t output dir)) :
      Apart t file output

variable {t : Tree} {file output dir : Path} {s : Settings} {l m : Leaf}

/-- The settings name no output, or one that is relative and does not go back. -/
def HasPlainOutput (s : Settings) : Prop :=
  ∀ name ∈ (given? s "output").bind Value.string?,
    (Path.ofString name).isAbsolute = false ∧ ".." ∉ (Path.ofString name).parts

instance (s : Settings) : Decidable (HasPlainOutput s) := inferInstanceAs (Decidable (∀ _ ∈ _, _))

theorem inside_outputIn (hdir : dir.Resolved) (hplain : HasPlainOutput (settingsIn t dir)) :
    Inside (outputIn t output dir) output := by
  unfold outputIn outputBelow
  unfold HasPlainOutput at hplain
  cases hname : (given? (settingsIn t dir) "output").bind Value.string? with
  | some name => exact inside_div (hplain name hname).1 (hplain name hname).2
  | none =>
    rw [Option.getD_none, Path.name]
    cases hlast : dir.parts.getLast? with
    | none => exact inside_div (by decide) (by decide)
    | some c =>
      have hc := List.mem_of_getLast? hlast
      rw [Option.getD_some, Path.ofString_component (hdir.proper c hc)]
      refine inside_div rfl fun hdots => hdir.no_dots ?_
      rwa [List.mem_singleton.1 hdots]

/-- Where no output leads elsewhere, only those of one list may meet. -/
theorem Apart.of_plain (dirs : List Path) (hfile : file.Resolved) (hread : Reads t file s)
    (hdirs : listedBy t file = dirs) (hplain : ∀ dir ∈ dirs, HasPlainOutput (settingsIn t dir))
    (hclear : dirs.Pairwise fun a b => KeepsClear t output a b ∧ KeepsClear t output b a)
    (hbelow : ∀ dir ∈ dirs, t.exists? [] (configIn dir) = true → (configIn dir).Resolved →
      Apart t (configIn dir) (outputIn t output dir)) : Apart t file output := by
  rw [hread.listedBy] at hdirs
  subst hdirs
  have hresolved (dir : Path) (hdir : dir ∈ listed s file.parent) : dir.Resolved :=
    resolved_of_mem_listed hfile.parent hdir
  exact .intro hread (fun dir hdir => inside_outputIn (hresolved dir hdir) (hplain dir hdir)) hclear
    fun dir hdir hexists => hbelow dir hdir hexists (resolved_configIn (hresolved dir hdir))

theorem settingsIn_of_reads (h : Reads t (configIn dir) s) : settingsIn t dir = s := by
  rw [settingsIn, show Settings.read _ _ = Except.ok s from h]
  rfl

theorem settingsIn_of_missing (h : t.exists? [] (configIn dir) = false) :
    settingsIn t dir = [] := by
  have hread : t.read? [] (configIn dir) = none := by
    have hfind : t.find? [] (configIn dir) = none := by simpa [Tree.exists?] using h
    rw [Tree.read?, hfind]
  rw [settingsIn, Settings.read, hread]
  rfl

theorem LeafIn.bare_or_nested (h : LeafIn t output dir l) :
    t.exists? [] (configIn dir) = false ∧ l = ⟨[], [], dir, outputIn t output dir⟩ ∨
      t.exists? [] (configIn dir) = true ∧
        LeafBelow t (configIn dir) (outputIn t output dir) l := by
  rcases h with ⟨hmissing, rfl⟩ | ⟨hexists, child, hread, hl⟩
  · rw [outputIn, settingsIn_of_missing hmissing]
    exact .inl ⟨hmissing, rfl⟩
  · rw [outputIn, settingsIn_of_reads hread]
    exact .inr ⟨hexists, hl⟩

theorem LeafIn.output_of_isSingle (hdir : IsSingle t dir) (h : LeafIn t output dir l) :
    l.output = outputIn t output dir := by
  rcases h.bare_or_nested with ⟨-, rfl⟩ | ⟨-, hl⟩
  · rfl
  · cases hl with
    | own _ _ => rfl
    | bare hread hentry _ | nested hread hentry _ _ _ =>
      rw [IsSingle, settingsIn_of_reads hread] at hdir
      rw [parent_configIn, hdir] at hentry
      cases hentry

theorem LeafIn.inside (h : LeafIn t output dir l)
    (hbelow : t.exists? [] (configIn dir) = true →
      ∀ l, LeafBelow t (configIn dir) (outputIn t output dir) l →
        Inside l.output (outputIn t output dir)) :
    Inside l.output (outputIn t output dir) := by
  rcases h.bare_or_nested with ⟨-, rfl⟩ | ⟨hexists, hl⟩
  · exact .refl _
  · exact hbelow hexists l hl

theorem Apart.inside (h : Apart t file output) (hl : LeafBelow t file output l) :
    Inside l.output output := by
  induction h generalizing l with
  | @intro file output s hread hinside _ _ ih =>
    by_cases hnil : listed s file.parent = []
    · obtain rfl := (leafBelow_own_iff hread hnil).1 hl
      exact .refl _
    · obtain ⟨i, dir, hentry, m, hm, rfl⟩ := (leafBelow_listed_iff hread hnil).1 hl
      have hdir := List.mem_of_getElem? hentry
      exact (hm.inside fun hexists l hl => ih dir hdir hexists hl).trans (hinside dir hdir)

theorem KeepsClear.not_sameDirectory {other : Path} (h : KeepsClear t output dir other)
    (hother : Inside (outputIn t output other) (outputIn t output dir))
    (hl : LeafIn t output dir l) (hm : Inside m.output (outputIn t output other)) :
    ¬ SameDirectory l.output m.output := by
  intro hsame
  obtain ⟨hsingle, hne⟩ := h.resolve_left (not_not_intro hother)
  rw [hl.output_of_isSingle hsingle] at hsame
  exact hne (hother.antisymm (hm.of_same hsame))

theorem clear_of_ne {dirs : List Path} {i j : Nat} {a b : Path}
    (h : dirs.Pairwise fun a b => KeepsClear t output a b ∧ KeepsClear t output b a)
    (hij : i ≠ j) (ha : dirs[i]? = some a) (hb : dirs[j]? = some b) :
    KeepsClear t output a b ∧ KeepsClear t output b a := by
  obtain ⟨hi, rfl⟩ := List.getElem?_eq_some_iff.1 ha
  obtain ⟨hj, rfl⟩ := List.getElem?_eq_some_iff.1 hb
  rcases Nat.lt_or_gt_of_ne hij with hlt | hlt
  · exact List.pairwise_iff_getElem.1 h i j hi hj hlt
  · exact (List.pairwise_iff_getElem.1 h j i hj hi hlt).symm

/-- Two leaves below a file with outputs that are apart have different outputs. -/
theorem Apart.not_sameDirectory (h : Apart t file output) (hl : LeafBelow t file output l)
    (hm : LeafBelow t file output m) (hroute : l.route ≠ m.route) :
    ¬ SameDirectory l.output m.output := by
  induction h generalizing l m with
  | @intro file output s hread _ hclear hbelow ih =>
    by_cases hnil : listed s file.parent = []
    · obtain rfl := (leafBelow_own_iff hread hnil).1 hl
      obtain rfl := (leafBelow_own_iff hread hnil).1 hm
      exact absurd rfl hroute
    · obtain ⟨i, a, ha, l, hla, rfl⟩ := (leafBelow_listed_iff hread hnil).1 hl
      obtain ⟨j, b, hb, m, hmb, rfl⟩ := (leafBelow_listed_iff hread hnil).1 hm
      by_cases hij : i = j
      · -- one directory of the list: both are leaves of its file
        subst hij
        obtain rfl := Option.some.inj (ha.symm.trans hb)
        have hroute : l.route ≠ m.route := fun heq => hroute (congrArg (i :: ·) heq)
        rcases hla.bare_or_nested with ⟨hmissing, rfl⟩ | ⟨hexists, hla⟩
        · rcases hmb.bare_or_nested with ⟨-, rfl⟩ | ⟨hexists, -⟩
          · exact absurd rfl hroute
          · rw [hmissing] at hexists
            cases hexists
        · rcases hmb.bare_or_nested with ⟨hmissing, -⟩ | ⟨-, hmb⟩
          · rw [hexists] at hmissing
            cases hmissing
          · have hne := ih a (List.mem_of_getElem? ha) hexists hla hmb hroute
            exact hne
      · -- two directories: what both hold lies in both outputs
        have hinside {d : Path} {n : Leaf} (hd : d ∈ listed s file.parent)
            (hn : LeafIn t output d n) : Inside n.output (outputIn t output d) :=
          hn.inside fun hexists n hn => (hbelow d hd hexists).inside hn
        have hl := hinside (List.mem_of_getElem? ha) hla
        have hm := hinside (List.mem_of_getElem? hb) hmb
        obtain ⟨hab, hba⟩ := clear_of_ne hclear hij ha hb
        intro hsame
        rcases hl.total (hm.of_same hsame) with hin | hin
        · exact hba.not_sameDirectory hin hmb hl (Eq.symm hsame)
        · exact hab.not_sameDirectory hin hla hm hsame

/-- Projects that are discovered have different output directories if the outputs below the
first file are apart. -/
theorem discover_outputs_apart (t : Tree) (here : Location) (config : Path) (out : Option Path)
    (hproper : ((⟨1, here⟩ : Path) / config).Proper) {c : Settings}
    (hread : Reads t (rootFile here config) c)
    (hapart : Apart t (rootFile here config) (rootOutput here (rootFile here config) out c))
    {ps : List Project} (h : (discover t here config out).value = some (.ok ps)) :
    ps.Pairwise fun p q => ¬ SameDirectory p.output q.output := by
  rw [discover_of_reads hread] at h
  obtain ⟨leaves, hcensus⟩ :=
    census_below (resolved_rootFile hproper) hread (stands_root hread.valid.2) h
  have hleaves : leaves.Pairwise fun l m => ¬ SameDirectory l.output m.output := by
    refine hcensus.sorted.imp_of_mem fun hl hm hlt => ?_
    refine hapart.not_sameDirectory ((hcensus.complete _).1 hl) ((hcensus.complete _).1 hm) ?_
    exact fun heq => List.lt_irrefl _ (heq ▸ hlt)
  have houtputs : leaves.map Leaf.output = ps.map Project.output := by
    rw [← List.forall₂_eq_eq_eq, List.forall₂_map_left_iff, List.forall₂_map_right_iff]
    exact hcensus.describes.imp fun l p hp => hp.output.symm
  rw [← List.pairwise_map (f := Leaf.output) (R := fun p q => ¬ SameDirectory p q), houtputs,
    List.pairwise_map] at hleaves
  exact hleaves

theorem apart_nestedShelves : Apart nestedShelves (configIn ⟨1, []⟩) ⟨1, ["site"]⟩ := by
  have horder := inOrder_nestedShelves
  have hcore (output : Path) (h : (configIn ⟨1, ["lib", "core"]⟩).Resolved) :
      Apart nestedShelves (configIn ⟨1, ["lib", "core"]⟩) output := by
    obtain ⟨s, hread⟩ := horder.exists_reads (f := configIn ⟨1, ["lib", "core"]⟩) (by decide)
    exact .of_plain [] h hread (by decide +kernel) nofun .nil nofun
  have hlib (output : Path) (h : (configIn ⟨1, ["lib"]⟩).Resolved) :
      Apart nestedShelves (configIn ⟨1, ["lib"]⟩) output := by
    obtain ⟨s, hread⟩ := horder.exists_reads (f := configIn ⟨1, ["lib"]⟩) (by decide)
    refine .of_plain [⟨1, ["lib", "core"]⟩] h hread (by decide +kernel)
      (by decide +kernel) (List.pairwise_singleton _ _) fun dir hdir _ hresolved => ?_
    obtain rfl := List.mem_singleton.1 hdir
    exact hcore _ hresolved
  obtain ⟨s, hread⟩ := horder.exists_reads (f := configIn ⟨1, []⟩) (by decide)
  have hresolved : (configIn ⟨1, []⟩).Resolved := by
    rw [show configIn ⟨1, []⟩ = rootFile [] (.ofString "doxymd.yml") by decide]
    exact resolved_rootFile (Path.proper_ofString _)
  refine .of_plain [⟨1, ["lib"]⟩, ⟨1, ["bare"]⟩] hresolved hread
    (by decide +kernel) (by decide +kernel) (by decide +kernel) fun dir hdir hexists h => ?_
  rcases List.mem_cons.1 hdir with rfl | hdir
  · exact hlib _ h
  · obtain rfl := List.mem_singleton.1 hdir
    exact absurd hexists (by decide +kernel)

theorem discover_outputs_apart_nestedShelves :
    ∃ ps, (discover nestedShelves [] (.ofString "doxymd.yml")
        (some (.ofString "site"))).value = some (.ok ps) ∧ ps.length = 2 ∧
      ps.Pairwise fun p q => ¬ SameDirectory p.output q.output := by
  have hlength : ((discover nestedShelves [] (.ofString "doxymd.yml")
      (some (.ofString "site"))).projects?.map List.length) = some 2 := by
    decide +kernel
  obtain ⟨ps, hps, hlength⟩ := exists_found_of_map hlength
  obtain ⟨c, hread⟩ := exists_reads_of_discover hps
  have hroot : rootFile [] (.ofString "doxymd.yml") = configIn ⟨1, []⟩ := by decide
  have hout : rootOutput [] (configIn ⟨1, []⟩) (some (.ofString "site")) c = ⟨1, ["site"]⟩ := by
    rw [rootOutput]
    decide
  refine ⟨ps, hps, hlength, ?_⟩
  refine discover_outputs_apart _ _ _ _ (Path.proper_ofString _) hread ?_ hps
  rw [hroot, hout]
  exact apart_nestedShelves

def twoLibs : Tree where
  entries :=
    [(["doxymd.yml"], .file "projects: [a/lib, b/lib]" false), (["a"], .dir), (["a", "lib"], .dir),
      (["b"], .dir), (["b", "lib"], .dir)]

/-- No directory is listed twice on the way from a file, in one list or in two. -/
def ListedOnce (t : Tree) (root : Path) : Prop :=
  ∀ f g, ReflTransGen (Lists t) root f → ReflTransGen (Lists t) root g →
    (listedBy t f).Nodup ∧ (f ≠ g → (listedBy t f).Disjoint (listedBy t g))

/-- Directories of one name have one output. -/
theorem not_outputs_apart_twoLibs : ¬ ∀ (t : Tree) (here : Location) (config : Path)
    (out : Option Path) (ps : List Project), (discover t here config out).value = some (.ok ps) →
      ListedOnce t (rootFile here config) →
      (∀ f, ReflTransGen (Lists t) (rootFile here config) f → ¬ TransGen (Lists t) f f) →
      ps.Pairwise fun p q => p.output ≠ q.output := by
  intro hclaim
  have horder : InOrder twoLibs [⟨1, ["doxymd.yml"]⟩] := by decide +kernel
  have hmem {f : Path} (hf : ReflTransGen (Lists twoLibs)
      (rootFile [] (.ofString "doxymd.yml")) f) := horder.mem (by decide) hf
  have houtputs : (discover twoLibs [] (.ofString "doxymd.yml") none).projects?.map
      (List.map Project.output) = some [⟨1, ["docs", "lib"]⟩, ⟨1, ["docs", "lib"]⟩] := by
    decide +kernel
  obtain ⟨ps, hps, houtputs⟩ := exists_found_of_map houtputs
  have honce : ListedOnce twoLibs (rootFile [] (.ofString "doxymd.yml")) := by
    intro f g hf hg
    obtain rfl := List.mem_singleton.1 (hmem hf)
    obtain rfl := List.mem_singleton.1 (hmem hg)
    exact ⟨by decide +kernel, fun hne => absurd rfl hne⟩
  have hpairwise := hclaim twoLibs [] (.ofString "doxymd.yml") none ps hps honce
    fun f hf => horder.not_transGen (hmem hf)
  rw [← List.pairwise_map (f := Project.output) (R := (· ≠ ·)), houtputs] at hpairwise
  revert hpairwise
  decide

end Project

end DoxPages
