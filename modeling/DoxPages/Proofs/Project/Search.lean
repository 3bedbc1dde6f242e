import DoxPages.Proofs.Files.Resolved
import DoxPages.Proofs.Project.Inheritance
import DoxPages.Proofs.Yaml.Keys
import Mathlib.Data.List.Nodup
import Mathlib.Data.List.Perm.Subperm
import Mathlib.Logic.Relation

/-!
# The search for projects

What one step of the search does: settings that list no directory are a project, and
otherwise each listed directory is looked into, under the settings it inherits. A search
ends if all settings files on its way can be read and none of them is listed, over any
number of files, by itself: the files on the way to a project are then different entries of
the tree.
-/

namespace DoxPages.Project

open Relation

variable {t : Tree} {depth : Nat} {s child : Settings} {dir output sub : Path}
  {ps : List Project}

/-! ## Settings files -/

def configIn (dir : Path) : Path := dir / Path.ofString Settings.fileName

def Reads (t : Tree) (file : Path) (s : Settings) : Prop :=
  Settings.read (t.read? []) file = .ok s

theorem Reads.valid {file : Path} (h : Reads t file s) :
    s.WellShaped ∧ (Value.mapping s).Distinct := by
  unfold Reads Settings.read at h
  split at h
  · cases h
  · rename_i source _
    cases htext : Settings.ofText source with
    | error e =>
      rw [htext] at h
      cases h
    | ok s' =>
      rw [htext] at h
      obtain rfl : s' = s := Except.ok.inj h
      unfold Settings.ofText at htext
      split at htext
      · rename_i v hv
        unfold Settings.ofValue at htext
        split at htext
        · obtain rfl := Except.ok.inj htext
          exact ⟨Settings.problems_eq_nil_iff.1 (by decide),
            .mapping Assoc.distinct_nil (List.forall_mem_nil _)⟩
        · split at htext
          · obtain rfl := Except.ok.inj htext
            exact ⟨Settings.problems_eq_nil_iff.1 ‹_›, Value.distinct_ofYaml? hv⟩
          · cases htext
        · cases htext
      · cases htext

theorem Reads.located {file : Path} (h : Reads t file s) (hfile : file.Resolved) :
    file.parts ∈ t.entries.map Prod.fst := by
  obtain ⟨source, hsource⟩ : ∃ source, t.read? [] file = some source := by
    unfold Reads Settings.read at h
    split at h
    · cases h
    · exact ⟨_, ‹_›⟩
  obtain ⟨l, hl⟩ := Tree.exists_locate?_of_read? hsource
  rw [Tree.read?, Tree.find?, hl, Option.bind_some, hfile.locate? hl] at hsource
  rw [← Assoc.exists_lookup_iff_keys]
  unfold Tree.entry? at hsource
  split at hsource
  · rename_i hentry
    split at hentry
    · cases hentry
    · exact ⟨_, hentry⟩
  · cases hsource

theorem configIn_eq (dir : Path) :
    configIn dir = { dir with parts := dir.parts ++ ["doxymd.yml"] } := by
  have hname : Path.ofString Settings.fileName = ⟨0, ["doxymd.yml"]⟩ := by decide
  rw [configIn, hname]
  rfl

theorem resolved_configIn (h : dir.Resolved) : (configIn dir).Resolved := by
  rw [configIn_eq]
  refine ⟨h.slashes, fun hdots => ?_, ?_⟩
  · rcases List.mem_append.1 hdots with hdots | hdots
    · exact h.no_dots hdots
    · revert hdots
      decide
  · rw [← configIn_eq]
    exact h.proper.join (Path.proper_ofString _)

theorem parent_configIn (dir : Path) : (configIn dir).parent = dir := by
  rw [configIn_eq, Path.parent, List.dropLast_concat]

theorem resolved_of_mem_listed (h : dir.Resolved) (hsub : sub ∈ listed s dir) :
    sub.Resolved := by
  obtain ⟨p, -, rfl⟩ := List.mem_map.1 hsub
  exact h.resolve (Path.proper_ofString p)

/-! ## Steps -/

theorem inTurn_nil (search : Path → Found) : (inTurn search []).value = some (.ok []) := rfl

/-- What is found in turn is what is found in each directory. -/
theorem inTurn_cons {search : Path → Found} {dirs : List Path} :
    (inTurn search (sub :: dirs)).value = some (.ok ps) ↔ ∃ found more,
      (search sub).value = some (.ok found) ∧ (inTurn search dirs).value = some (.ok more) ∧
        ps = found ++ more := by
  rw [inTurn, Reported.value_bind]
  match (search sub).value with
  | none => simp
  | some (.error e) => simp
  | some (.ok found) =>
    simp only
    rw [Reported.value_bind]
    match (inTurn search dirs).value with
    | none => simp
    | some (.error e) => simp
    | some (.ok more) => simp [eq_comm]

theorem exists_inTurn {search : Path → Found} {dirs : List Path}
    (h : ∀ sub ∈ dirs, ∃ ps, (search sub).value = some (.ok ps)) :
    ∃ ps, (inTurn search dirs).value = some (.ok ps) := by
  induction dirs with
  | nil => exact ⟨_, inTurn_nil search⟩
  | cons sub dirs ih =>
    obtain ⟨found, hfound⟩ := h sub List.mem_cons_self
    obtain ⟨more, hmore⟩ := ih fun d hd => h d (List.mem_cons_of_mem _ hd)
    exact ⟨_, inTurn_cons.2 ⟨found, more, hfound, hmore, rfl⟩⟩

theorem exists_of_inTurn {search : Path → Found} {dirs : List Path}
    (h : (inTurn search dirs).value = some (.ok ps)) :
    ∀ sub ∈ dirs, ∃ ps, (search sub).value = some (.ok ps) := by
  induction dirs generalizing ps with
  | nil => exact nofun
  | cons sub dirs ih =>
    obtain ⟨found, more, hfound, hmore, -⟩ := inTurn_cons.1 h
    exact List.forall_mem_cons.2 ⟨⟨found, hfound⟩, ih hmore⟩

def bareProject (s : Settings) (dir output sub : Path) : Project :=
  ofSettings (Assoc.put (.string "input") (.string sub.toString) (inherited s)) dir
    (outputBelow output [] sub)

def searchIn (t : Tree) (depth : Nat) (s : Settings) (dir output sub : Path) : Found := do
  if t.exists? [] (configIn sub) then
    Reported.report (.loadingSubproject (configIn sub))
    match Settings.read (t.read? []) (configIn sub) with
    | .error e => pure (some (.error e))
    | .ok child =>
      below t depth (Settings.merge (inherited s) child) sub (outputBelow output child sub)
  else pure (some (.ok [bareProject s dir output sub]))

theorem below_own (h : listed s dir = []) :
    (below t (depth + 1) s dir output).value = some (.ok [ofSettings s dir output]) := by
  rw [below, h]
  rfl

theorem below_listed (h : listed s dir ≠ []) : below t (depth + 1) s dir output =
    inTurn (searchIn t depth s dir output) (listed s dir) := by
  rw [below]
  cases hdirs : listed s dir with
  | nil => exact absurd hdirs h
  | cons sub dirs => rfl

theorem searchIn_bare (h : t.exists? [] (configIn sub) = false) :
    (searchIn t depth s dir output sub).value = some (.ok [bareProject s dir output sub]) := by
  rw [searchIn, h]
  rfl

theorem searchIn_config (h : t.exists? [] (configIn sub) = true) :
    (searchIn t depth s dir output sub).value = some (.ok ps) ↔
      ∃ child, Reads t (configIn sub) child ∧
        (below t depth (Settings.merge (inherited s) child) sub
          (outputBelow output child sub)).value = some (.ok ps) := by
  rw [searchIn, h, if_pos rfl, Reported.value_bind]
  unfold Reads
  cases Settings.read (t.read? []) (configIn sub) <;> simp

/-! ## The end of a search -/

/-- The second file is the settings file of a directory that the first one lists. -/
def Lists (t : Tree) (f g : Path) : Prop :=
  ∃ s sub, Reads t f s ∧ sub ∈ listed s f.parent ∧ t.exists? [] (configIn sub) = true ∧
    g = configIn sub

/-- Files on the way down from a first one, the last one in front. -/
inductive Trail (t : Tree) (root : Path) : List Path → Prop where
  | root : Trail t root [root]
  | down {f g : Path} {files : List Path} (h : Trail t root (f :: files)) (hg : Lists t f g) :
      Trail t root (g :: f :: files)

namespace Trail

variable {root f : Path} {files : List Path}

theorem reaches (h : Trail t root files) {g : Path} (hg : g ∈ files) :
    ReflTransGen (Lists t) root g := by
  induction h generalizing g with
  | root =>
    obtain rfl := List.mem_singleton.1 hg
    exact .refl
  | down h hlists ih =>
    rcases List.mem_cons.1 hg with rfl | hg
    · exact (ih List.mem_cons_self).tail hlists
    · exact ih hg

theorem leads (h : Trail t root (f :: files)) {g : Path} (hg : g ∈ f :: files) :
    ReflTransGen (Lists t) g f := by
  generalize heq : f :: files = fs at h hg
  induction h generalizing f files g with
  | root =>
    obtain ⟨rfl, -⟩ := List.cons.inj heq
    obtain rfl := List.mem_singleton.1 hg
    exact .refl
  | down h hlists ih =>
    obtain ⟨rfl, -⟩ := List.cons.inj heq
    rcases List.mem_cons.1 hg with rfl | hg
    · exact .refl
    · exact (ih rfl hg).tail hlists

/-- No file comes twice if none leads to itself. -/
theorem nodup (hacyclic : ∀ f, ReflTransGen (Lists t) root f → ¬ TransGen (Lists t) f f)
    (h : Trail t root files) : files.Nodup := by
  induction h with
  | root => exact List.nodup_singleton _
  | down h hlists ih =>
    refine List.nodup_cons.2 ⟨fun hmem => ?_, ih⟩
    refine hacyclic _ (h.reaches hmem) ?_
    exact TransGen.tail' (h.leads hmem) hlists

theorem resolved (hroot : root.Resolved) (h : Trail t root files) {g : Path} (hg : g ∈ files) :
    g.Resolved := by
  induction h generalizing g with
  | root =>
    obtain rfl := List.mem_singleton.1 hg
    exact hroot
  | down h hlists ih =>
    rcases List.mem_cons.1 hg with rfl | hg
    · obtain ⟨s, sub, -, hsub, -, rfl⟩ := hlists
      exact resolved_configIn (resolved_of_mem_listed (ih List.mem_cons_self).parent hsub)
    · exact ih hg

/-- Different files are different entries. -/
theorem length_le (hroot : root.Resolved)
    (hvalid : ∀ f, ReflTransGen (Lists t) root f → ∃ s, Reads t f s)
    (hacyclic : ∀ f, ReflTransGen (Lists t) root f → ¬ TransGen (Lists t) f f)
    (h : Trail t root files) : files.length ≤ t.entries.length := by
  have hnodup : (files.map Path.parts).Nodup := by
    refine (h.nodup hacyclic).map_on fun f hf g hg heq => ?_
    have hf := (h.resolved hroot hf).slashes
    have hg := (h.resolved hroot hg).slashes
    cases f
    cases g
    simp_all
  have hsub : files.map Path.parts ⊆ t.entries.map Prod.fst := by
    intro l hl
    obtain ⟨f, hf, rfl⟩ := List.mem_map.1 hl
    obtain ⟨s, hs⟩ := hvalid f (h.reaches hf)
    exact hs.located (h.resolved hroot hf)
  have hle := (List.subperm_of_subset hnodup hsub).length_le
  rwa [List.length_map, List.length_map] at hle

end Trail

/-- The same directories are listed by settings with the same entry. -/
theorem listed_congr {s s' : Settings}
    (h : Settings.get? s "projects" = Settings.get? s' "projects") (dir : Path) :
    listed s dir = listed s' dir := by
  unfold listed Settings.given?
  rw [h]

theorem exists_below {root f : Path} {files : List Path} {c : Settings} (hroot : root.Resolved)
    (hvalid : ∀ f, ReflTransGen (Lists t) root f → ∃ s, Reads t f s)
    (hacyclic : ∀ f, ReflTransGen (Lists t) root f → ¬ TransGen (Lists t) f f)
    (htrail : Trail t root (f :: files)) (hread : Reads t f c)
    (hs : Settings.get? s "projects" = Settings.get? c "projects")
    (hdepth : t.entries.length < depth + (f :: files).length) :
    ∃ ps, (below t depth s f.parent output).value = some (.ok ps) := by
  have hlength := htrail.length_le hroot hvalid hacyclic
  induction depth generalizing f files c s output with
  | zero => omega
  | succ depth ih =>
    by_cases hnil : listed s f.parent = []
    · exact ⟨_, below_own hnil⟩
    · rw [below_listed hnil]
      refine exists_inTurn fun sub hsub => ?_
      rw [listed_congr hs] at hsub
      cases hexists : t.exists? [] (configIn sub) with
      | false => exact ⟨_, searchIn_bare hexists⟩
      | true =>
        have hlists : Lists t f (configIn sub) := ⟨c, sub, hread, hsub, hexists, rfl⟩
        have htrail' := htrail.down hlists
        obtain ⟨child, hchild⟩ := hvalid _ (htrail'.reaches List.mem_cons_self)
        have hprojects : Settings.get? (Settings.merge (inherited s) child) "projects" =
            Settings.get? child "projects" := get?_child_own hchild.valid.2 (by decide)
        have hends : ∃ ps, (below t depth (Settings.merge (inherited s) child)
            (configIn sub).parent (outputBelow output child sub)).value = some (.ok ps) :=
          ih htrail' hchild hprojects (by simp only [List.length_cons] at hdepth ⊢; omega)
            (htrail'.length_le hroot hvalid hacyclic)
        obtain ⟨ps, hps⟩ := hends
        rw [parent_configIn] at hps
        exact ⟨ps, (searchIn_config hexists).2 ⟨child, hchild, hps⟩⟩

/-! ## Files in order -/

def listedBy (t : Tree) (f : Path) : List Path :=
  match Settings.read (t.read? []) f with
  | .ok s => listed s f.parent
  | .error _ => []

theorem Reads.listedBy {f : Path} (h : Reads t f s) : listedBy t f = listed s f.parent := by
  rw [Project.listedBy, show Settings.read _ _ = Except.ok s from h]

def listedFiles (t : Tree) (f : Path) : List Path :=
  ((listedBy t f).map configIn).filter (t.exists? [] ·)

theorem lists_iff {f g : Path} : Lists t f g ↔ g ∈ listedFiles t f := by
  unfold Lists listedFiles listedBy Reads
  cases hread : Settings.read (t.read? []) f with
  | error e => simp
  | ok s =>
    rw [List.mem_filter, List.mem_map]
    constructor
    · rintro ⟨s', sub, hs, hsub, hexists, rfl⟩
      obtain rfl := Except.ok.inj hs
      exact ⟨⟨sub, hsub, rfl⟩, hexists⟩
    · rintro ⟨⟨sub, hsub, rfl⟩, hexists⟩
      exact ⟨s, sub, rfl, hsub, hexists, rfl⟩

def InOrder (t : Tree) (files : List Path) : Prop :=
  ∀ f ∈ files, (Settings.read (t.read? []) f).toBool = true ∧
    ∀ g ∈ listedFiles t f, g ∈ files ∧ files.idxOf f < files.idxOf g

instance (t : Tree) (files : List Path) : Decidable (InOrder t files) :=
  inferInstanceAs (Decidable (∀ _ ∈ _, _))

namespace InOrder

variable {files : List Path} {root f g : Path}

theorem mem (h : InOrder t files) (hroot : root ∈ files)
    (hf : ReflTransGen (Lists t) root f) : f ∈ files := by
  induction hf with
  | refl => exact hroot
  | tail _ hlists ih => exact ((h _ ih).2 _ (lists_iff.1 hlists)).1

theorem exists_reads (h : InOrder t files) (hf : f ∈ files) : ∃ s, Reads t f s := by
  have hread := (h f hf).1
  unfold Reads
  cases hs : Settings.read (t.read? []) f with
  | ok s => exact ⟨s, rfl⟩
  | error e =>
    rw [hs] at hread
    cases hread

/-- No file leads to itself: each step goes on in the list. -/
theorem not_transGen (h : InOrder t files) (hf : f ∈ files) : ¬ TransGen (Lists t) f f := by
  have hlater (g : Path) (hg : TransGen (Lists t) f g) :
      g ∈ files ∧ files.idxOf f < files.idxOf g := by
    induction hg with
    | single hlists => exact (h f hf).2 _ (lists_iff.1 hlists)
    | tail _ hlists ih =>
      obtain ⟨hmem, hlt⟩ := (h _ ih.1).2 _ (lists_iff.1 hlists)
      exact ⟨hmem, Nat.lt_trans ih.2 hlt⟩
  exact fun hcycle => Nat.lt_irrefl _ (hlater f hcycle).2

end InOrder

/-! ## Discovery -/

def rootFile (here : Location) (config : Path) : Path := (⟨1, here⟩ : Path).resolve config

/-- The output of all that is discovered; one that is asked for goes before the settings. -/
def rootOutput (here : Location) (file : Path) (output : Option Path) (c : Settings) : Path :=
  match output with
  | some output => (⟨1, here⟩ : Path).resolve output
  | none =>
    file.parent.resolve
      (Path.ofString (((Settings.get? c "output").bind Value.string?).getD "docs"))

section

variable {here : Location} {config : Path} {out : Option Path} {c : Settings}

theorem discover_of_reads (h : Reads t (rootFile here config) c) :
    (discover t here config out).value =
      (below t (t.entries.length + 2) (Settings.merge Settings.defaults c)
        (rootFile here config).parent (rootOutput here (rootFile here config) out c)).value := by
  have hload : Settings.load (t.read? []) (rootFile here config) =
      .ok (Settings.merge Settings.defaults c) := by
    rw [Settings.load, show Settings.read _ _ = Except.ok c from h]
    rfl
  -- the default output is that of the default settings
  have hout : ((Settings.get? (Settings.merge Settings.defaults c) "output").bind
      Value.string?).getD "" = ((Settings.get? c "output").bind Value.string?).getD "docs" := by
    rw [Settings.get?_merge h.valid.2,
      show Settings.get? Settings.defaults "output" = some (.string "docs") from rfl]
    cases hfield : Settings.get? c "output" with
    | none => rfl
    | some v =>
      have hstring := h.valid.1.strings "output" (by decide) v hfield
      cases v with
      | scalar x =>
        cases x with
        | string s => rfl
        | _ => cases hstring
      | _ => cases hstring
  unfold discover
  simp only
  rw [show (⟨1, here⟩ : Path).resolve config = rootFile here config from rfl, hload]
  cases out with
  | none =>
    rw [rootOutput, ← hout]
  | some out => rfl

theorem exists_reads_of_discover (h : (discover t here config out).value = some (.ok ps)) :
    ∃ c, Reads t (rootFile here config) c := by
  unfold discover at h
  simp only at h
  rw [Settings.load, show (⟨1, here⟩ : Path).resolve config = rootFile here config from rfl] at h
  cases hread : Settings.read (t.read? []) (rootFile here config) with
  | error e =>
    rw [hread] at h
    cases h
  | ok c => exact ⟨c, hread⟩

/-- What is seen of a value that may be missing is seen of one that is there. -/
theorem exists_ok_of_map {ε α β : Type} {r : Except ε α} {f : α → β} {b : β}
    (h : r.toOption.map f = some b) : ∃ a, r = .ok a ∧ f a = b := by
  cases r with
  | error e => cases h
  | ok a => exact ⟨a, rfl, Option.some.inj h⟩

theorem exists_found_of_map {found : Found} {α : Type} {f : List Project → α} {a : α}
    (h : found.projects?.map f = some a) : ∃ ps, found.value = some (.ok ps) ∧ f ps = a := by
  unfold Found.projects? at h
  match hfound : found.value with
  | none =>
    rw [hfound] at h
    cases h
  | some r =>
    rw [hfound] at h
    obtain ⟨ps, rfl, hps⟩ := exists_ok_of_map h
    exact ⟨ps, rfl, hps⟩

theorem resolved_rootFile (h : ((⟨1, here⟩ : Path) / config).Proper) :
    (rootFile here config).Resolved := Path.resolved_resolve h

end

end DoxPages.Project
