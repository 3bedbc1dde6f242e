import DoxPages.Proofs.Project.Search

/-!
# The leaves of a search

A leaf is a settings file that lists no directory, or a listed directory without settings
of its own; its route says which entry is taken in each list. `LeafBelow` says what the
leaves below a file are, apart from the search, and `Census` that projects are those of the
leaves, each once, in the order of their routes. Wherever the search ends, its projects are
a census (`census_below`), and it ends unless a file leads to itself.
-/

namespace DoxPages.Project

open Settings Relation

/-! ## Leaves -/

structure Leaf where
  /-- Which entry is taken in each list of directories. -/
  route : List Nat
  /-- The settings files on the way. -/
  configs : List Settings
  input : Path
  output : Path

def Leaf.within (s : Settings) (i : Nat) (l : Leaf) : Leaf :=
  { l with route := i :: l.route, configs := s :: l.configs }

def ownInput (s : Settings) (dir : Path) : Path :=
  match (get? s "input").bind Value.string? with
  | some input => dir.resolve (Path.ofString input)
  | none => dir

/-- The leaves below a settings file whose output is given. -/
inductive LeafBelow (t : Tree) : (file output : Path) → Leaf → Prop where
  | own {file output : Path} {s : Settings} (read : Reads t file s)
      (last : listed s file.parent = []) :
      LeafBelow t file output ⟨[], [s], ownInput s file.parent, output⟩
  | bare {file output dir : Path} {s : Settings} {i : Nat} (read : Reads t file s)
      (entry : (listed s file.parent)[i]? = some dir)
      (missing : t.exists? [] (configIn dir) = false) :
      LeafBelow t file output ⟨[i], [s], dir, outputBelow output [] dir⟩
  | nested {file output dir : Path} {s child : Settings} {i : Nat} {l : Leaf}
      (read : Reads t file s) (entry : (listed s file.parent)[i]? = some dir)
      (config : t.exists? [] (configIn dir) = true) (readChild : Reads t (configIn dir) child)
      (leaf : LeafBelow t (configIn dir) (outputBelow output child dir) l) :
      LeafBelow t file output (l.within s i)

/-- The leaves of one listed directory; a bare one is a leaf itself. -/
def LeafIn (t : Tree) (output dir : Path) (l : Leaf) : Prop :=
  t.exists? [] (configIn dir) = false ∧ l = ⟨[], [], dir, outputBelow output [] dir⟩ ∨
    t.exists? [] (configIn dir) = true ∧ ∃ child, Reads t (configIn dir) child ∧
      LeafBelow t (configIn dir) (outputBelow output child dir) l

section

variable {t : Tree} {file output : Path} {s : Settings} {l : Leaf}

theorem Reads.unique {s' : Settings} (h : Reads t file s) (h' : Reads t file s') : s = s' :=
  Except.ok.inj (h.symm.trans h')

theorem leafBelow_own_iff (hread : Reads t file s) (hlast : listed s file.parent = []) :
    LeafBelow t file output l ↔ l = ⟨[], [s], ownInput s file.parent, output⟩ := by
  constructor
  · intro h
    cases h with
    | own hread' _ => rw [hread.unique hread']
    | bare hread' hentry _ =>
      rw [← hread.unique hread', hlast] at hentry
      cases hentry
    | nested hread' hentry _ _ _ =>
      rw [← hread.unique hread', hlast] at hentry
      cases hentry
  · rintro rfl
    exact .own hread hlast

theorem leafBelow_listed_iff (hread : Reads t file s) (hlist : listed s file.parent ≠ []) :
    LeafBelow t file output l ↔ ∃ i dir, (listed s file.parent)[i]? = some dir ∧
      ∃ m, LeafIn t output dir m ∧ l = m.within s i := by
  constructor
  · intro h
    cases h with
    | own hread' hlast =>
      rw [← hread.unique hread'] at hlast
      exact absurd hlast hlist
    | @bare _ _ dir _ i hread' hentry hmissing =>
      obtain rfl := hread.unique hread'
      exact ⟨i, dir, hentry, _, .inl ⟨hmissing, rfl⟩, rfl⟩
    | @nested _ _ dir _ child i m hread' hentry hconfig hchild hleaf =>
      obtain rfl := hread.unique hread'
      exact ⟨i, dir, hentry, m, .inr ⟨hconfig, child, hchild, hleaf⟩, rfl⟩
  · rintro ⟨i, dir, hentry, m, ⟨hmissing, rfl⟩ | ⟨hconfig, child, hchild, hleaf⟩, rfl⟩
    · exact .bare hread hentry hmissing
    · exact .nested hread hentry hconfig hchild hleaf

end

/-! ## Projects of leaves -/

structure Describes (above : List Settings) (l : Leaf) (p : Project) : Prop where
  input : p.input = l.input
  output : p.output = l.output
  settings : Inherits (above ++ l.configs) p.settings

/-- The projects are those of the leaves, each once, in the order of their routes. -/
structure Census (IsLeaf : Leaf → Prop) (above : List Settings) (leaves : List Leaf)
    (ps : List Project) : Prop where
  sorted : leaves.Pairwise fun l m => l.route < m.route
  complete : ∀ l, l ∈ leaves ↔ IsLeaf l
  describes : List.Forall₂ (Describes above) leaves ps

variable {t : Tree} {IsLeaf : Leaf → Prop} {above : List Settings} {s : Settings}
  {leaves : List Leaf} {ps : List Project}

theorem census_singleton {l : Leaf} {p : Project} (hleaf : ∀ m, IsLeaf m ↔ m = l)
    (hp : Describes above l p) : Census IsLeaf above [l] [p] where
  sorted := List.pairwise_singleton _ _
  complete m := by rw [List.mem_singleton, hleaf]
  describes := .cons hp .nil

theorem Census.congr {IsLeaf' : Leaf → Prop} (h : Census IsLeaf above leaves ps)
    (heq : ∀ l, IsLeaf l ↔ IsLeaf' l) : Census IsLeaf' above leaves ps where
  sorted := h.sorted
  complete l := (h.complete l).trans (heq l)
  describes := h.describes

theorem Census.within (h : Census IsLeaf (above ++ [s]) leaves ps) (i : Nat) :
    Census (fun l => ∃ m, IsLeaf m ∧ l = m.within s i) above (leaves.map (Leaf.within s i))
      ps where
  sorted := by
    rw [List.pairwise_map]
    exact h.sorted.imp fun hlt => List.cons_lt_cons_iff.2 (.inr ⟨rfl, hlt⟩)
  complete l := by
    simp only [List.mem_map, h.complete, eq_comm]
  describes := by
    rw [List.forall₂_map_left_iff]
    refine h.describes.imp fun l p hp => ⟨hp.input, hp.output, ?_⟩
    have happend : above ++ (s :: l.configs) = above ++ [s] ++ l.configs := by simp
    exact happend ▸ hp.settings

/-- What is found in turn is a census if it is one in each directory. -/
theorem census_inTurn {search : Path → Found} {dirs : List Path}
    {IsLeafOf : Path → Leaf → Prop} (start : Nat)
    (hsearch : ∀ dir ∈ dirs, ∀ ps, (search dir).value = some (.ok ps) →
      ∃ leaves, Census (IsLeafOf dir) (above ++ [s]) leaves ps)
    (h : (inTurn search dirs).value = some (.ok ps)) :
    ∃ leaves, Census (fun l => ∃ i dir, dirs[i]? = some dir ∧
      ∃ m, IsLeafOf dir m ∧ l = m.within s (start + i)) above leaves ps := by
  induction dirs generalizing start ps with
  | nil =>
    obtain rfl := Except.ok.inj (Option.some.inj h)
    exact ⟨[], .nil, fun l => by simp, .nil⟩
  | cons dir dirs ih =>
    obtain ⟨found, more, hfound, hmore, rfl⟩ := inTurn_cons.1 h
    obtain ⟨first, hfirst⟩ := hsearch dir List.mem_cons_self found hfound
    obtain ⟨rest, hrest⟩ := ih (start + 1) (fun d hd => hsearch d (List.mem_cons_of_mem _ hd)) hmore
    have hfirst := hfirst.within start
    refine ⟨_, List.pairwise_append.2 ⟨hfirst.sorted, hrest.sorted, fun l hl m hm => ?_⟩,
      fun l => ?_, List.rel_append hfirst.describes hrest.describes⟩
    · -- the routes of the first directory go before all others
      obtain ⟨_, -, rfl⟩ := (hfirst.complete l).1 hl
      obtain ⟨i, _, -, _, -, rfl⟩ := (hrest.complete m).1 hm
      exact List.cons_lt_cons_iff.2 (.inl (by omega))
    · rw [List.mem_append, hfirst.complete, hrest.complete]
      constructor
      · rintro (⟨m, hm, rfl⟩ | ⟨i, d, hd, m, hm, rfl⟩)
        · exact ⟨0, dir, rfl, m, hm, rfl⟩
        · exact ⟨i + 1, d, hd, m, hm, by rw [Nat.add_right_comm, ← Nat.add_assoc]⟩
      · rintro ⟨i, d, hd, m, hm, rfl⟩
        cases i with
        | zero =>
          obtain rfl := Option.some.inj hd
          exact .inl ⟨m, hm, rfl⟩
        | succ i =>
          exact .inr ⟨i, d, hd, m, hm, by rw [Nat.add_right_comm, ← Nat.add_assoc]⟩

/-! ## The search -/

/-- The settings that hold at a file below a chain. -/
structure Stands (above : List Settings) (c s : Settings) : Prop where
  inherits : Inherits (above ++ [c]) s
  input : get? s "input" = get? c "input"
  projects : get? s "projects" = get? c "projects"

theorem stands_root {c : Settings} (hc : (Value.mapping c).Distinct) :
    Stands [defaults] c (merge defaults c) where
  inherits := inherits_root hc
  input := by
    rw [get?_merge hc, show get? defaults "input" = none from rfl]
    cases get? c "input" <;> rfl
  projects := by
    rw [get?_merge hc, show get? defaults "projects" = none from rfl]
    cases get? c "projects" <;> rfl

theorem Stands.nested {c s child : Settings} (h : Stands above c s)
    (hchild : (Value.mapping child).Distinct) :
    Stands (above ++ [c]) child (merge (inherited s) child) where
  inherits := h.inherits.layer hchild
  input := get?_child_own hchild (by decide)
  projects := get?_child_own hchild (by decide)

theorem string?_given? (s : Settings) (field : String) :
    (given? s field).bind Value.string? =
      ((get? s field).bind Value.string?).filter fun text => !text.isEmpty := by
  unfold given?
  cases get? s field with
  | none => rfl
  | some v =>
    rw [Option.filter_some, Option.bind_some]
    cases hv : v.string? with
    | none => split <;> simp [hv]
    | some text =>
      have hblank : v.isBlank = text.isEmpty := by
        cases v with
        | scalar x =>
          cases x with
          | string text' => rw [Option.some.inj hv.symm]; rfl
          | _ => cases hv
        | _ => cases hv
      rw [Option.filter_some, hblank]
      split <;> simp [hv]

theorem input_ofSettings {c s : Settings} {dir output : Path}
    (hinput : get? s "input" = get? c "input") (hdir : dir.Resolved) :
    (ofSettings s dir output).input = ownInput c dir := by
  unfold ofSettings ownInput
  rw [string?_given?, hinput]
  cases (get? c "input").bind Value.string? with
  | none => rfl
  | some input =>
    by_cases hempty : input = ""
    · -- an empty input is the directory, whether it is resolved or not
      rw [hempty]
      exact (Path.resolve_nothing hdir).symm
    · rw [Option.filter_some, if_pos (by simpa using hempty)]

/-- A bare directory is its own input: it is written as a text and read back. -/
theorem input_bareProject {dir output sub : Path} (hdir : dir.Resolved) (hsub : sub.Resolved) :
    (bareProject s dir output sub).input = sub := by
  refine (input_ofSettings rfl hdir).trans ?_
  rw [ownInput, get?_put, if_pos rfl]
  refine Eq.trans ?_ (Path.resolve_eq_self hsub dir)
  exact congrArg dir.resolve (Path.ofString_toString hsub)

theorem census_searchIn {depth : Nat} {c : Settings} {dir output sub : Path}
    (hs : Stands above c s) (hdir : dir.Resolved) (hsub : sub.Resolved)
    (hbelow : ∀ {child : Settings} {output : Path} {ps : List Project},
      Reads t (configIn sub) child →
      (below t depth (merge (inherited s) child) sub output).value = some (.ok ps) →
      ∃ leaves, Census (LeafBelow t (configIn sub) output) (above ++ [c]) leaves ps)
    (h : (searchIn t depth s dir output sub).value = some (.ok ps)) :
    ∃ leaves, Census (LeafIn t output sub) (above ++ [c]) leaves ps := by
  cases hexists : t.exists? [] (configIn sub) with
  | false =>
    rw [searchIn_bare hexists] at h
    obtain rfl := Except.ok.inj (Option.some.inj h)
    refine ⟨_, census_singleton (l := ⟨[], [], sub, outputBelow output [] sub⟩)
      (fun m => by simp [LeafIn, hexists]) ⟨input_bareProject hdir hsub, rfl, ?_⟩⟩
    rw [List.append_nil]
    exact hs.inherits.bare _
  | true =>
    obtain ⟨child, hchild, hps⟩ := (searchIn_config hexists).1 h
    obtain ⟨leaves, hcensus⟩ := hbelow hchild hps
    refine ⟨leaves, hcensus.congr fun l => ?_⟩
    constructor
    · exact fun hl => .inr ⟨hexists, child, hchild, hl⟩
    · rintro (⟨hmissing, -⟩ | ⟨-, child', hchild', hl⟩)
      · rw [hexists] at hmissing
        cases hmissing
      · rwa [hchild.unique hchild']

/-- The projects that a search finds are those of the leaves. -/
theorem census_below {depth : Nat} {file output : Path} {c : Settings} (hfile : file.Resolved)
    (hread : Reads t file c) (hs : Stands above c s)
    (h : (below t depth s file.parent output).value = some (.ok ps)) :
    ∃ leaves, Census (LeafBelow t file output) above leaves ps := by
  induction depth generalizing file output above c s ps with
  | zero => cases h
  | succ depth ih =>
    have hlisted := listed_congr hs.projects file.parent
    by_cases hnil : listed s file.parent = []
    · rw [below_own hnil] at h
      obtain rfl := Except.ok.inj (Option.some.inj h)
      exact ⟨_, census_singleton (fun l => leafBelow_own_iff hread (hlisted ▸ hnil))
        ⟨input_ofSettings hs.input hfile.parent, rfl, hs.inherits⟩⟩
    · rw [below_listed hnil] at h
      have hsearch (sub : Path) (hsub : sub ∈ listed s file.parent) (ps : List Project)
          (h : (searchIn t depth s file.parent output sub).value = some (.ok ps)) :
          ∃ leaves, Census (LeafIn t output sub) (above ++ [c]) leaves ps := by
        have hresolved := resolved_of_mem_listed hfile.parent hsub
        refine census_searchIn hs hfile.parent hresolved (fun hchild hps => ?_) h
        refine ih (resolved_configIn hresolved) hchild (hs.nested hchild.valid.2) ?_
        rwa [parent_configIn]
      obtain ⟨leaves, hcensus⟩ := census_inTurn 0 hsearch h
      refine ⟨leaves, hcensus.congr fun l => ?_⟩
      rw [leafBelow_listed_iff hread (hlisted ▸ hnil), hlisted]
      simp only [Nat.zero_add]

/-! ## Discovery -/

theorem LeafBelow.wellShaped {file output : Path} {l : Leaf} (h : LeafBelow t file output l) :
    ∀ c ∈ l.configs, c.WellShaped := by
  induction h with
  | own hread _ | bare hread _ _ =>
    intro c hc
    obtain rfl := List.mem_singleton.1 hc
    exact hread.valid.1
  | nested hread _ _ _ _ ih =>
    intro c hc
    rcases List.mem_cons.1 hc with rfl | hc
    · exact hread.valid.1
    · exact ih c hc

theorem ne_mapping_of_wellShaped {c : Settings} (hc : c.WellShaped) {field : String}
    (hfield : field ∈ stringFields ++ stringListFields) {v : Value}
    (hv : get? c field = some v) (es : List (Scalar × Value)) : v ≠ .mapping es := by
  rintro rfl
  rcases List.mem_append.1 hfield with hfield | hfield
  · exact nomatch hc.strings field hfield _ hv
  · exact nomatch hc.lists field hfield _ hv

/-- The project that a leaf gives: outside its own fields it has what the defaults and the
files on the way hold, laid over one another, so of texts and lists the last one. -/
structure Gives (l : Leaf) (p : Project) : Prop where
  input : p.input = l.input
  output : p.output = l.output
  layered : ∀ field ∉ ownFields,
    get? p.settings field = Value.stack (valuesOf (defaults :: l.configs) field)
  last : ∀ field ∈ stringFields ++ stringListFields, field ∉ ownFields →
    get? p.settings field = (valuesOf (defaults :: l.configs) field).getLast?

theorem Describes.gives {l : Leaf} {p : Project} (h : Describes [defaults] l p)
    (hl : ∀ c ∈ l.configs, c.WellShaped) : Gives l p where
  input := h.input
  output := h.output
  layered := h.settings
  last field hfield hown := by
    refine (h.settings field hown).trans (Value.stack_eq_getLast? fun v hv => ?_)
    obtain ⟨c, hc, hv⟩ := List.mem_filterMap.1 hv
    refine ne_mapping_of_wellShaped ?_ hfield hv
    rcases List.mem_cons.1 hc with rfl | hc
    · exact wellShaped_defaults
    · exact hl c hc

/-- If all files on the way can be read and none leads to itself, discovery gives the
project of every leaf, once each and in the order of the lists. -/
theorem discover_gives_leaves (t : Tree) (here : Location) (config : Path) (out : Option Path)
    (hproper : ((⟨1, here⟩ : Path) / config).Proper)
    (hvalid : ∀ f, ReflTransGen (Lists t) (rootFile here config) f → ∃ s, Reads t f s)
    (hacyclic : ∀ f, ReflTransGen (Lists t) (rootFile here config) f →
      ¬ TransGen (Lists t) f f) :
    ∃ c leaves ps, Reads t (rootFile here config) c ∧
      (discover t here config out).value = some (.ok ps) ∧
      leaves.Pairwise (fun l m => l.route < m.route) ∧
      (∀ l, l ∈ leaves ↔
        LeafBelow t (rootFile here config) (rootOutput here (rootFile here config) out c) l) ∧
      List.Forall₂ Gives leaves ps := by
  obtain ⟨c, hread⟩ := hvalid _ .refl
  have hroot := resolved_rootFile hproper
  have hstands := stands_root hread.valid.2
  have hends : ∃ ps, (below t (t.entries.length + 2) (merge defaults c)
      (rootFile here config).parent (rootOutput here (rootFile here config) out c)).value =
        some (.ok ps) :=
    exists_below hroot hvalid hacyclic .root hread hstands.projects
      (by simp only [List.length_singleton]; omega)
  obtain ⟨ps, hps⟩ := hends
  obtain ⟨leaves, hcensus⟩ := census_below hroot hread hstands hps
  refine ⟨c, leaves, ps, hread, (discover_of_reads hread).trans hps, hcensus.sorted,
    hcensus.complete, ?_⟩
  have hshaped := fun l hl => ((hcensus.complete l).1 hl).wellShaped
  have hboth := (List.forall₂_and_left _ _).2 ⟨hshaped, hcensus.describes⟩
  exact hboth.imp fun l p h => h.2.gives h.1

/-- Directories in one another, the last one with an index of its own, and a bare one. -/
def nestedShelves : Tree where
  entries :=
    [(["doxymd.yml"], .file "prefix: a-\nprojects: [lib, bare]" false),
      (["lib"], .dir),
      (["lib", "doxymd.yml"], .file "prefix: b-\nprojects: [core]" false),
      (["lib", "core"], .dir),
      (["lib", "core", "doxymd.yml"], .file "input: include\nindex: core.md" false),
      (["bare"], .dir)]

theorem inOrder_nestedShelves : InOrder nestedShelves
    [configIn ⟨1, []⟩, configIn ⟨1, ["lib"]⟩, configIn ⟨1, ["lib", "core"]⟩] := by
  decide +kernel

theorem discover_gives_leaves_nestedShelves :
    ∃ leaves ps, (discover nestedShelves [] (.ofString "doxymd.yml")
        (some (.ofString "site"))).value = some (.ok ps) ∧
      ps.map Project.input = [⟨1, ["lib", "core", "include"]⟩, ⟨1, ["bare"]⟩] ∧
      leaves.Pairwise (fun l m => l.route < m.route) ∧
      (∀ l, l ∈ leaves ↔ LeafBelow nestedShelves ⟨1, ["doxymd.yml"]⟩ ⟨1, ["site"]⟩ l) ∧
      List.Forall₂ Gives leaves ps := by
  have hroot : rootFile [] (.ofString "doxymd.yml") = ⟨1, ["doxymd.yml"]⟩ := by decide
  have hout : (⟨1, []⟩ : Path).resolve (.ofString "site") = ⟨1, ["site"]⟩ := by decide
  have hmem {f : Path} (hf : ReflTransGen (Lists nestedShelves)
      (rootFile [] (.ofString "doxymd.yml")) f) := inOrder_nestedShelves.mem (by decide) hf
  have hinputs : (discover nestedShelves [] (.ofString "doxymd.yml")
      (some (.ofString "site"))).projects?.map (List.map Project.input) =
        some [⟨1, ["lib", "core", "include"]⟩, ⟨1, ["bare"]⟩] := by
    decide +kernel
  obtain ⟨c, leaves, ps, -, hps, hsorted, hcomplete, hgives⟩ :=
    discover_gives_leaves nestedShelves [] (.ofString "doxymd.yml") (some (.ofString "site"))
      (Path.proper_ofString _) (fun f hf => inOrder_nestedShelves.exists_reads (hmem hf))
      fun f hf => inOrder_nestedShelves.not_transGen (hmem hf)
  rw [Found.projects?, hps] at hinputs
  rw [hroot, rootOutput, hout] at hcomplete
  exact ⟨leaves, ps, hps, Option.some.inj hinputs, hsorted, hcomplete, hgives⟩

end DoxPages.Project
