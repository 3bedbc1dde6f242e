import DoxPages.Proofs.Project.Leaves
import Mathlib.Data.List.Chain

/-!
# Searches that end

Nothing keeps a directory from being listed below itself, so the search goes as deep as it is
let. `Finished` says that it was not cut off; then it finds the same however much deeper it may
go (`below_of_le`). The files that the search comes to are those that are listed behind
directories which can be searched (`ComesTo`). If none of them leads back to itself, they are
different entries of the tree, and the search ends within as many levels; if one does, it is cut
off at every depth.
-/

namespace DoxPages.Project

open Relation

variable {t : Tree} {depth deeper : Nat} {s c : Settings} {dir output sub f g root : Path}
  {ps : List Project} {found : Found} {search search' : Path → Found}
  {dirs files : List Path}

/-! ## Searches that are not cut off -/

def Finished (found : Found) : Prop := found.value ≠ none

theorem finished_of_ok (h : found.value = some (.ok ps)) : Finished found := by
  rw [Finished, h]
  exact nofun

theorem finished_inTurn_cons : Finished (inTurn search (sub :: dirs)) ↔ Finished (search sub) ∧
    ((∃ ps, (search sub).value = some (.ok ps)) → Finished (inTurn search dirs)) := by
  unfold Finished
  rw [inTurn, Reported.value_bind]
  rcases (search sub).value with _ | e | found
  · simp
  · simp
  · rw [Reported.value_bind]
    rcases (inTurn search dirs).value with _ | e | more <;> simp

theorem finished_inTurn_iff : Finished (inTurn search dirs) ↔ ∀ before sub after,
    dirs = before ++ sub :: after → (∀ d ∈ before, ∃ ps, (search d).value = some (.ok ps)) →
      Finished (search sub) := by
  induction dirs with
  | nil =>
    constructor
    · intro _ before sub after hnil
      exact absurd hnil.symm (List.append_ne_nil_of_right_ne_nil _ (List.cons_ne_nil _ _))
    · exact fun _ => finished_of_ok (inTurn_nil search)
  | cons first dirs ih =>
    rw [finished_inTurn_cons, ih]
    constructor
    · rintro ⟨hfirst, hrest⟩ before sub after hdirs hbefore
      cases before with
      | nil =>
        obtain ⟨rfl, -⟩ := List.cons.inj hdirs
        exact hfirst
      | cons d before =>
        obtain ⟨rfl, htail⟩ := List.cons.inj hdirs
        rw [List.forall_mem_cons] at hbefore
        exact hrest hbefore.1 before sub after htail hbefore.2
    · intro h
      refine ⟨h [] first dirs rfl nofun, fun hfirst before sub after hdirs hbefore => ?_⟩
      refine h (first :: before) sub after (by rw [hdirs]; rfl) ?_
      exact List.forall_mem_cons.2 ⟨hfirst, hbefore⟩

/-- If each search that ends is successful, then so are those in turn that end. -/
theorem exists_inTurn_of_finished (hfin : Finished (inTurn search dirs))
    (h : ∀ sub ∈ dirs, Finished (search sub) → ∃ ps, (search sub).value = some (.ok ps)) :
    ∃ ps, (inTurn search dirs).value = some (.ok ps) := by
  induction dirs with
  | nil => exact ⟨_, inTurn_nil search⟩
  | cons first dirs ih =>
    obtain ⟨hfirst, hrest⟩ := finished_inTurn_cons.1 hfin
    rw [List.forall_mem_cons] at h
    obtain ⟨found, hfound⟩ := h.1 hfirst
    obtain ⟨more, hmore⟩ := ih (hrest ⟨found, hfound⟩) h.2
    exact ⟨_, inTurn_cons.2 ⟨found, more, hfound, hmore, rfl⟩⟩

/-- A directory with settings is searched to the end if that is so below all it can hold. -/
theorem finished_searchIn (h : t.exists? [] (configIn sub) = true) :
    Finished (searchIn t depth s dir output sub) ↔ ∀ child, Reads t (configIn sub) child →
      Finished (below t depth (Settings.merge (inherited s) child) sub
        (outputBelow output child sub)) := by
  unfold Finished Reads
  rw [searchIn, h, if_pos rfl, Reported.value_bind]
  cases Settings.read (t.read? []) (configIn sub) <;> simp

/-! ## Deeper searches -/

theorem bind_congr_value {α β : Type} {x : Reported α} {f g : α → Reported β}
    (h : f x.value = g x.value) : x >>= f = x >>= g := by
  show Reported.mk _ _ _ = Reported.mk _ _ _
  rw [h]

theorem inTurn_congr (hfin : Finished (inTurn search dirs))
    (h : ∀ sub ∈ dirs, Finished (search sub) → search' sub = search sub) :
    inTurn search' dirs = inTurn search dirs := by
  induction dirs with
  | nil => rfl
  | cons first dirs ih =>
    obtain ⟨hsub, hrest⟩ := finished_inTurn_cons.1 hfin
    rw [List.forall_mem_cons] at h
    rw [inTurn, inTurn, h.1 hsub]
    refine bind_congr_value ?_
    rcases hfirst : (search first).value with _ | e | found
    · rfl
    · rfl
    · simp only [ih (hrest ⟨found, hfirst⟩) h.2]

/-- A search that ends finds the same, with the same log, if it may go one level deeper. -/
theorem below_succ (h : Finished (below t depth s dir output)) :
    below t (depth + 1) s dir output = below t depth s dir output := by
  induction depth generalizing s dir output with
  | zero => exact absurd rfl h
  | succ depth ih =>
    by_cases hnil : listed s dir = []
    · rw [below, below, hnil]
    · rw [below_listed hnil] at h ⊢
      rw [below_listed hnil]
      refine inTurn_congr h fun sub _ hsub => ?_
      unfold searchIn
      split
      · rename_i hexists
        rw [finished_searchIn hexists] at hsub
        refine bind_congr_value ?_
        cases hread : Settings.read (t.read? []) (configIn sub) with
        | error e => rfl
        | ok child => exact ih (hsub child hread)
      · rfl

theorem below_of_le (h : Finished (below t depth s dir output)) (hle : depth ≤ deeper) :
    below t deeper s dir output = below t depth s dir output := by
  induction deeper, hle using Nat.le_induction with
  | base => rfl
  | succ deeper hle ih => rw [below_succ (ih ▸ h), ih]

/-! ## Directories that can be searched -/

/-- The file and all that it leads to can be read, and there is an end to it. -/
inductive Searchable (t : Tree) : Path → Prop where
  | intro {f : Path} {s : Settings} (read : Reads t f s)
      (each : ∀ dir ∈ listed s f.parent, t.exists? [] (configIn dir) = true →
        Searchable t (configIn dir)) : Searchable t f

theorem Searchable.exists_reads (h : Searchable t f) : ∃ c, Reads t f c := by
  obtain ⟨hread, -⟩ := h
  exact ⟨_, hread⟩

theorem searchable_of_below (hdir : f.parent = dir) (hread : Reads t f c)
    (hs : Settings.get? s "projects" = Settings.get? c "projects")
    (h : (below t depth s dir output).value = some (.ok ps)) : Searchable t f := by
  induction depth generalizing f c s dir output ps with
  | zero => cases h
  | succ depth ih =>
    subst hdir
    refine .intro hread fun sub hsub hexists => ?_
    rw [← listed_congr hs] at hsub
    rw [below_listed (List.ne_nil_of_mem hsub)] at h
    obtain ⟨found, hfound⟩ := exists_of_inTurn h sub hsub
    obtain ⟨child, hchild, hps⟩ := (searchIn_config hexists).1 hfound
    exact ih (parent_configIn sub) hchild (get?_child_own hchild.valid.2 (by decide)) hps

theorem exists_searchIn_of_finished (hfin : Finished (searchIn t depth s dir output sub))
    (hread : t.exists? [] (configIn sub) = true → ∃ child, Reads t (configIn sub) child)
    (hbelow : ∀ child, t.exists? [] (configIn sub) = true → Reads t (configIn sub) child →
      Finished (below t depth (Settings.merge (inherited s) child) sub
        (outputBelow output child sub)) →
      ∃ ps, (below t depth (Settings.merge (inherited s) child) sub
        (outputBelow output child sub)).value = some (.ok ps)) :
    ∃ ps, (searchIn t depth s dir output sub).value = some (.ok ps) := by
  cases hexists : t.exists? [] (configIn sub) with
  | false => exact ⟨_, searchIn_bare hexists⟩
  | true =>
    obtain ⟨child, hchild⟩ := hread hexists
    have hfinchild := (finished_searchIn hexists).1 hfin child hchild
    obtain ⟨ps, hps⟩ := hbelow child hexists hchild hfinchild
    exact ⟨ps, (searchIn_config hexists).2 ⟨child, hchild, hps⟩⟩

theorem exists_below_of_searchable (h : Searchable t f) (hdir : f.parent = dir)
    (hread : Reads t f c) (hs : Settings.get? s "projects" = Settings.get? c "projects")
    (hfin : Finished (below t depth s dir output)) :
    ∃ ps, (below t depth s dir output).value = some (.ok ps) := by
  induction h generalizing depth c s dir output with
  | @intro f c' hread' heach ih =>
    obtain rfl := hread.unique hread'
    subst hdir
    cases depth with
    | zero => exact absurd rfl hfin
    | succ depth =>
      by_cases hnil : listed s f.parent = []
      · exact ⟨_, below_own hnil⟩
      · rw [below_listed hnil] at hfin ⊢
        refine exists_inTurn_of_finished hfin fun sub hsub hfinsub => ?_
        rw [listed_congr hs] at hsub
        refine exists_searchIn_of_finished hfinsub (fun hexists =>
          (heach sub hsub hexists).exists_reads) fun child hexists hchild => ?_
        exact ih sub hsub hexists (parent_configIn sub) hchild
          (get?_child_own hchild.valid.2 (by decide))

def CanBeFound (t : Tree) (dir : Path) : Prop :=
  t.exists? [] (configIn dir) = true → Searchable t (configIn dir)

theorem canBeFound_of_searchIn (h : (searchIn t depth s dir output sub).value = some (.ok ps)) :
    CanBeFound t sub := by
  intro hexists
  obtain ⟨child, hchild, hps⟩ := (searchIn_config hexists).1 h
  exact searchable_of_below (parent_configIn sub) hchild
    (get?_child_own hchild.valid.2 (by decide)) hps

theorem CanBeFound.exists_searchIn (h : CanBeFound t sub)
    (hfin : Finished (searchIn t depth s dir output sub)) :
    ∃ ps, (searchIn t depth s dir output sub).value = some (.ok ps) :=
  exists_searchIn_of_finished hfin (fun hexists => (h hexists).exists_reads)
    fun _ hexists hchild => exists_below_of_searchable (h hexists) (parent_configIn sub) hchild
      (get?_child_own hchild.valid.2 (by decide))

/-! ## Files that the search comes to -/

/-- The second file stands in a directory that the first one lists, and what is listed before it
can be found. -/
def ComesTo (t : Tree) (f g : Path) : Prop :=
  ∃ s before sub after, Reads t f s ∧ listed s f.parent = before ++ sub :: after ∧
    (∀ d ∈ before, CanBeFound t d) ∧ t.exists? [] (configIn sub) = true ∧ g = configIn sub

theorem ComesTo.resolved (h : ComesTo t f g) (hf : f.Resolved) : g.Resolved := by
  obtain ⟨s, before, sub, after, -, hlisted, -, -, rfl⟩ := h
  refine resolved_configIn (resolved_of_mem_listed (s := s) hf.parent ?_)
  rw [hlisted]
  exact List.mem_append_right _ List.mem_cons_self

theorem exists_comesTo (hf : ReflTransGen (ComesTo t) f g) (hg : TransGen (ComesTo t) g g) :
    ∃ h, ComesTo t f h ∧ ReflTransGen (ComesTo t) h g := by
  rcases ReflTransGen.cases_head hf with rfl | hstep
  · exact TransGen.head'_iff.1 hg
  · exact hstep

/-- A search that comes to a file which leads back to itself is cut off, however deep it may
go. -/
theorem not_finished_below (hdir : f.parent = dir) (hread : Reads t f c)
    (hs : Settings.get? s "projects" = Settings.get? c "projects")
    (hf : ReflTransGen (ComesTo t) f g) (hg : TransGen (ComesTo t) g g) :
    ¬ Finished (below t depth s dir output) := by
  induction depth generalizing f c s dir output with
  | zero => exact fun hfin => hfin rfl
  | succ depth ih =>
    subst hdir
    obtain ⟨_, ⟨c', before, sub, after, hread', hlisted, hbefore, hexists, rfl⟩, hsub⟩ :=
      exists_comesTo hf hg
    obtain rfl := hread.unique hread'
    obtain ⟨_, ⟨child, _, _, _, hchild, -⟩, -⟩ := exists_comesTo hsub hg
    rw [← listed_congr hs] at hlisted
    intro hfin
    rw [below_listed (by rw [hlisted]; exact List.append_ne_nil_of_right_ne_nil _ (by simp)),
      hlisted, finished_inTurn_iff] at hfin
    -- what is listed before is searched with success, so the search goes on to the file
    have hfinbefore : Finished (inTurn (searchIn t depth s f.parent output) before) := by
      refine finished_inTurn_iff.2 fun first d rest hsplit => hfin first d (rest ++ sub :: after) ?_
      rw [hsplit, List.append_assoc, List.cons_append]
    obtain ⟨ps, hps⟩ := exists_inTurn_of_finished hfinbefore fun d hd =>
      (hbefore d hd).exists_searchIn
    have hfinsub := hfin before sub after rfl (exists_of_inTurn hps)
    rw [finished_searchIn hexists] at hfinsub
    exact ih (parent_configIn sub) hchild (get?_child_own hchild.valid.2 (by decide)) hsub
      (hfinsub child hchild)

/-! ## Chains of files -/

theorem mem_entries_of_exists (hfile : f.Resolved) (hne : f.parts ≠ [])
    (h : t.exists? [] f = true) : f.parts ∈ t.entries.map Prod.fst := by
  unfold Tree.exists? Tree.find? at h
  cases hl : t.locate? [] f with
  | none =>
    rw [hl] at h
    cases h
  | some l =>
    obtain rfl := hfile.locate? hl
    rw [hl, Option.bind_some, Tree.entry?, if_neg hne, Option.isSome_iff_exists] at h
    exact Assoc.exists_lookup_iff_keys.1 h

theorem resolved_and_mem_entries (hroot : root.Resolved) (hread : Reads t root c)
    (h : ReflTransGen (ComesTo t) root f) : f.Resolved ∧ f.parts ∈ t.entries.map Prod.fst := by
  induction h with
  | refl => exact ⟨hroot, hread.located hroot⟩
  | tail _ hstep ih =>
    have hresolved := hstep.resolved ih.1
    obtain ⟨s, before, sub, after, -, -, -, hexists, rfl⟩ := hstep
    refine ⟨hresolved, mem_entries_of_exists hresolved ?_ hexists⟩
    rw [configIn_eq]
    exact List.concat_ne_nil _ _

section

variable {r : Settings} (hroot : root.Resolved) (hread : Reads t root r)
  (hacyclic : ∀ f, ReflTransGen (ComesTo t) root f → ¬ TransGen (ComesTo t) f f)
include hroot hread hacyclic

/-- The files of a chain, the last one in front, are different entries if none comes back to
itself. -/
theorem length_le_entries (hreach : ∀ f ∈ files, ReflTransGen (ComesTo t) root f)
    (hchain : files.IsChain fun g f => ComesTo t f g) : files.length ≤ t.entries.length := by
  have hpairwise : files.Pairwise fun g f => TransGen (ComesTo t) f g := by
    have : IsTrans Path fun g f => TransGen (ComesTo t) f g := ⟨fun _ _ _ h h' => h'.trans h⟩
    exact List.isChain_iff_pairwise.1 (hchain.imp fun _ _ => .single)
  have hresolved (f : Path) (hf : f ∈ files) := resolved_and_mem_entries hroot hread (hreach f hf)
  have hnodup : (files.map Path.parts).Nodup := by
    rw [List.Nodup, List.pairwise_map]
    refine hpairwise.imp_of_mem fun {g f} hg hf hleads heq => hacyclic f (hreach f hf) ?_
    obtain rfl : f = g := by
      have hslashes := (hresolved f hf).1.slashes.trans (hresolved g hg).1.slashes.symm
      cases f
      cases g
      simp_all
    exact hleads
  have hsub : files.map Path.parts ⊆ t.entries.map Prod.fst := by
    intro l hl
    obtain ⟨f, hf, rfl⟩ := List.mem_map.1 hl
    exact (hresolved f hf).2
  have hle := (List.subperm_of_subset hnodup hsub).length_le
  rwa [List.length_map, List.length_map] at hle

/-- A search that comes back to no file ends, if it may go a level deeper than there are
entries. -/
theorem finished_below (hdir : f.parent = dir) (hf : Reads t f c)
    (hs : Settings.get? s "projects" = Settings.get? c "projects")
    (hreach : ∀ g ∈ f :: files, ReflTransGen (ComesTo t) root g)
    (hchain : (f :: files).IsChain fun g f => ComesTo t f g)
    (hdepth : t.entries.length < depth + (f :: files).length) :
    Finished (below t depth s dir output) := by
  induction depth generalizing f c s dir output files with
  | zero =>
    have hle := length_le_entries hroot hread hacyclic hreach hchain
    omega
  | succ depth ih =>
    subst hdir
    by_cases hnil : listed s f.parent = []
    · exact finished_of_ok (below_own hnil)
    · rw [below_listed hnil, finished_inTurn_iff]
      intro before sub after hdirs hbefore
      cases hexists : t.exists? [] (configIn sub) with
      | false => exact finished_of_ok (searchIn_bare hexists)
      | true =>
        rw [finished_searchIn hexists]
        intro child hchild
        have hstep : ComesTo t f (configIn sub) := by
          refine ⟨c, before, sub, after, hf, ?_, fun d hd => ?_, hexists, rfl⟩
          · rw [← listed_congr hs, hdirs]
          · obtain ⟨ps, hps⟩ := hbefore d hd
            exact canBeFound_of_searchIn hps
        have hsub := (hreach f List.mem_cons_self).tail hstep
        refine ih (parent_configIn sub) hchild (get?_child_own hchild.valid.2 (by decide))
          (List.forall_mem_cons.2 ⟨hsub, hreach⟩) (List.isChain_cons_cons.2 ⟨hstep, hchain⟩) ?_
        simp only [List.length_cons] at hdepth ⊢
        omega

end

/-! ## Discovery to a depth -/

section

variable {here : Location} {config : Path} {out : Option Path}

/-- The output of the first file: the one that is asked for, or that of its settings. -/
def firstOutput (here : Location) (dir : Path) (out : Option Path) (s : Settings) : Path :=
  match out with
  | some out => (⟨1, here⟩ : Path).resolve out
  | none => dir.resolve (Path.ofString (((Settings.get? s "output").bind Value.string?).getD ""))

def discoverTo (t : Tree) (depth : Nat) (here : Location) (config : Path) (out : Option Path) :
    Found :=
  let file := rootFile here config
  match Settings.load (t.read? []) file with
  | .error e => pure (some (.error e))
  | .ok s => below t depth s file.parent (firstOutput here file.parent out s)

theorem discover_eq_discoverTo (t : Tree) (here : Location) (config : Path) (out : Option Path) :
    discover t here config out = discoverTo t (t.entries.length + 2) here config out := rfl

theorem discoverTo_of_reads (h : Reads t (rootFile here config) c) (out : Option Path) :
    ∃ s output, Settings.get? s "projects" = Settings.get? c "projects" ∧ ∀ depth,
      discoverTo t depth here config out =
        below t depth s (rootFile here config).parent output := by
  have hload : Settings.load (t.read? []) (rootFile here config) =
      .ok (Settings.merge Settings.defaults c) := by
    rw [Settings.load, show Settings.read _ _ = Except.ok c from h]
    rfl
  refine ⟨Settings.merge Settings.defaults c, firstOutput here (rootFile here config).parent out
    (Settings.merge Settings.defaults c), (stands_root h.valid.2).projects, fun depth => ?_⟩
  simp only [discoverTo, hload]

theorem discoverTo_of_not_reads (h : ¬ ∃ c, Reads t (rootFile here config) c)
    (out : Option Path) :
    ∃ e, ∀ depth, discoverTo t depth here config out = pure (some (.error e)) := by
  unfold Reads at h
  cases hread : Settings.read (t.read? []) (rootFile here config) with
  | ok c => exact absurd ⟨c, hread⟩ h
  | error e =>
    refine ⟨e, fun depth => ?_⟩
    simp only [discoverTo, Settings.load, hread]
    rfl

theorem discoverTo_of_le (h : Finished (discoverTo t depth here config out))
    (hle : depth ≤ deeper) :
    discoverTo t deeper here config out = discoverTo t depth here config out := by
  by_cases hread : ∃ c, Reads t (rootFile here config) c
  · obtain ⟨c, hread⟩ := hread
    obtain ⟨s, output, -, heq⟩ := discoverTo_of_reads hread out
    rw [heq] at h ⊢
    rw [heq, below_of_le h hle]
  · obtain ⟨e, heq⟩ := discoverTo_of_not_reads hread out
    rw [heq, heq]

/-- Discovery comes to an end, with projects or with settings that cannot be used, if and only
if none of the files that it comes to leads back to itself. Whatever depth it may go to, it then
finds the same as soon as it is not cut off, with the same log. -/
theorem discovery_ends_iff (t : Tree) (here : Location) (config : Path) (out : Option Path)
    (hproper : ((⟨1, here⟩ : Path) / config).Proper) :
    (Finished (discover t here config out) ↔
      ∀ f, ReflTransGen (ComesTo t) (rootFile here config) f → ¬ TransGen (ComesTo t) f f) ∧
    ((∃ depth, Finished (discoverTo t depth here config out)) ↔
      ∀ f, ReflTransGen (ComesTo t) (rootFile here config) f → ¬ TransGen (ComesTo t) f f) ∧
    ∀ depth, Finished (discoverTo t depth here config out) →
      discover t here config out = discoverTo t depth here config out := by
  have hends (hacyclic : ∀ f, ReflTransGen (ComesTo t) (rootFile here config) f →
      ¬ TransGen (ComesTo t) f f) : Finished (discover t here config out) := by
    rw [discover_eq_discoverTo]
    by_cases hread : ∃ c, Reads t (rootFile here config) c
    · obtain ⟨c, hread⟩ := hread
      obtain ⟨s, output, hs, heq⟩ := discoverTo_of_reads hread out
      rw [heq]
      refine finished_below (resolved_rootFile hproper) hread hacyclic rfl hread hs ?_
        (List.isChain_singleton _) (by simp only [List.length_singleton]; omega)
      exact List.forall_mem_singleton.2 .refl
    · obtain ⟨e, heq⟩ := discoverTo_of_not_reads hread out
      rw [heq]
      exact nofun
  have hacyclic {depth : Nat} (hfin : Finished (discoverTo t depth here config out)) (f : Path)
      (hf : ReflTransGen (ComesTo t) (rootFile here config) f) : ¬ TransGen (ComesTo t) f f := by
    intro hcycle
    obtain ⟨_, ⟨c, _, _, _, hread, -⟩, -⟩ := exists_comesTo hf hcycle
    obtain ⟨s, output, hs, heq⟩ := discoverTo_of_reads hread out
    rw [heq] at hfin
    exact not_finished_below rfl hread hs hf hcycle hfin
  refine ⟨⟨fun hfin => hacyclic hfin, hends⟩,
    ⟨fun ⟨_, hfin⟩ => hacyclic hfin, fun h => ⟨_, hends h⟩⟩, fun depth hfin => ?_⟩
  -- both depths find what the greater one of them finds
  have hdiscover := hends (hacyclic hfin)
  rw [discover_eq_discoverTo] at hdiscover ⊢
  rw [← discoverTo_of_le hdiscover (Nat.le_max_left _ depth),
    ← discoverTo_of_le hfin (Nat.le_max_right _ depth)]

/-- Directories below one another are searched on three levels. -/
theorem discovery_ends_iff_nestedShelves :
    (∀ f, ReflTransGen (ComesTo nestedShelves) (rootFile [] (.ofString "doxymd.yml")) f →
      ¬ TransGen (ComesTo nestedShelves) f f) ∧
    discover nestedShelves [] (.ofString "doxymd.yml") none =
      discoverTo nestedShelves 3 [] (.ofString "doxymd.yml") none := by
  have hlength : ((discoverTo nestedShelves 3 [] (.ofString "doxymd.yml")
      none).projects?.map List.length) = some 2 := by
    decide +kernel
  obtain ⟨ps, hps, -⟩ := exists_found_of_map hlength
  have hends := discovery_ends_iff nestedShelves [] (.ofString "doxymd.yml") none
    (Path.proper_ofString _)
  exact ⟨hends.2.1.1 ⟨3, finished_of_ok hps⟩, hends.2.2 3 (finished_of_ok hps)⟩

def selfListed : Tree where
  entries := [(["doxymd.yml"], .file "projects: [.]" false)]

/-- A directory that lists itself is searched without end. -/
theorem not_discovery_ends_selfListed : ¬ ∀ (t : Tree) (here : Location) (config : Path)
    (out : Option Path), ∃ depth, Finished (discoverTo t depth here config out) := by
  intro hclaim
  obtain ⟨depth, hfin⟩ := hclaim selfListed [] (.ofString "doxymd.yml") none
  have hlists : listedBy selfListed (rootFile [] (.ofString "doxymd.yml")) = [⟨1, []⟩] := by
    decide +kernel
  have hlength : (Settings.read (selfListed.read? [])
      (rootFile [] (.ofString "doxymd.yml"))).toOption.map List.length = some 1 := by
    decide +kernel
  obtain ⟨c, hread, -⟩ := exists_ok_of_map hlength
  have hback : ComesTo selfListed (rootFile [] (.ofString "doxymd.yml"))
      (rootFile [] (.ofString "doxymd.yml")) := by
    refine ⟨c, [], ⟨1, []⟩, [], hread, ?_, nofun, by decide +kernel, by decide⟩
    rw [← Reads.listedBy hread, hlists]
    rfl
  obtain ⟨s, output, hs, heq⟩ := discoverTo_of_reads hread none
  rw [heq] at hfin
  exact not_finished_below rfl hread hs .refl (.single hback) hfin

end

end DoxPages.Project
