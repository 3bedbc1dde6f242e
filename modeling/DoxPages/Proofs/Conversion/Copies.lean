import DoxPages.Proofs.Conversion.Kept
import DoxPages.Proofs.Project.Search
import Mathlib.Data.List.Find

/-!
# Copies of all projects

Every project copies its pages to one directory, under the names of their files. So a copy
is what was written last under its name, by whatever project: `Copies` says this of a
conversion, and it goes from one conversion to a run of many. The run keeps all pages
exactly if no two of one name differ.
-/

namespace DoxPages

open Docs

/-! ## Files by name -/

namespace Tree.Wrote

variable {here : Location} {ws : List (Path × String)} {t t' : Tree} {q : Path}

theorem read_of_name_ne (h : Wrote here ws t t') (hws : ∀ w ∈ ws, EndsInName w.1)
    (hq : EndsInName q) (hne : ∀ w ∈ ws, w.1.name ≠ q.name) :
    t'.read? here q = t.read? here q := by
  have hnone : (ws.reverse.find? fun w => t.locate? here w.1 = t.locate? here q) = none := by
    rw [List.find?_eq_none]
    intro w hw hloc
    rw [List.mem_reverse] at hw
    rw [decide_eq_true_eq] at hloc
    obtain ⟨l, hl, -⟩ := h.located w hw
    exact hne w hw ((hws w hw).name_eq hq hl (hloc ▸ hl))
  rw [h.read, hnone]
  rfl

/-- A file holds the last text under its name if that was written to it. -/
theorem read_of_last (h : Wrote here ws t t') (hws : ∀ w ∈ ws, EndsInName w.1)
    {w : Path × String} (hlast : ws.reverse.find? (fun v => v.1.name = w.1.name) = some w) :
    t'.read? here w.1 = some w.2 := by
  have hw := List.mem_reverse.1 (List.mem_of_find?_eq_some hlast)
  obtain ⟨l, hl, -⟩ := h.located w hw
  have hfind : ws.reverse.find? (fun v => t.locate? here v.1 = t.locate? here w.1) = some w := by
    refine find?_eq_some_of_imp hlast (decide_eq_true rfl) fun v hv hloc => ?_
    rw [decide_eq_true_eq] at hloc ⊢
    exact (hws v (List.mem_reverse.1 hv)).name_eq (hws w hw) (hloc ▸ hl) hl
  rw [h.read, hfind]
  rfl

end Tree.Wrote

/-! ## Copies -/

namespace Plan

variable {plan : Plan} {programs : Programs} {target page : Path} {t t' t'' : Tree}
  {ws vs : List (Path × String)}

/-- A path with a name that the generator's settings file does not take. -/
structure IsPage (plan : Plan) (page : Path) : Prop where
  name : Tree.EndsInName page
  ne_doxyfile : plan.generator ≠ none → page.name ≠ "Doxyfile"

/-- From the first tree to the second texts were written and copied: each copy holds the last
text under its name, and the others are what they were. -/
structure Copies (plan : Plan) (target : Path) (ws : List (Path × String)) (t t' : Tree) :
    Prop where
  isDir : ∀ l, t.isDir l = true → t'.isDir l = true
  names : ∀ w ∈ ws, Tree.EndsInName w.1
  last : ∀ page, plan.IsPage page → ∀ w,
    ws.reverse.find? (fun v => v.1.name = page.name) = some w →
      t'.read? plan.here (target / Path.ofString page.name) = some w.2
  others : ∀ page, plan.IsPage page → (∀ w ∈ ws, w.1.name ≠ page.name) → ∀ text,
    t.read? plan.here (target / Path.ofString page.name) = some text →
      t'.read? plan.here (target / Path.ofString page.name) = some text

/-- The directories of the first tree are there in the second, and the copies in one of
them are what they were. -/
structure Spares (plan : Plan) (target : Path) (t t' : Tree) : Prop where
  isDir : ∀ l, t.isDir l = true → t'.isDir l = true
  read : ∀ page, plan.IsPage page → ∀ text,
    t.read? plan.here (target / Path.ofString page.name) = some text →
      t'.read? plan.here (target / Path.ofString page.name) = some text

theorem Spares.trans (h : plan.Spares target t t') (h' : plan.Spares target t' t'') :
    plan.Spares target t t'' where
  isDir l hl := h'.isDir l (h.isDir l hl)
  read page hpage text htext := h'.read page hpage text (h.read page hpage text htext)

theorem spares_of_grows (h : t.Grows t') : plan.Spares target t t' where
  isDir _ := h.isDir
  read _ _ _ := h.read?

theorem spares_of_wrote (h : Tree.Wrote plan.here ws t t')
    (hws : ∀ w ∈ ws, Tree.EndsInName w.1)
    (hne : ∀ w ∈ ws, ∀ page, plan.IsPage page → w.1.name ≠ page.name) :
    plan.Spares target t t' where
  isDir l hl := (h.isDir l).trans hl
  read page hpage text htext := by
    obtain ⟨hcopy, hname⟩ := hpage.name.join target
    rw [h.read_of_name_ne hws hcopy fun w hw => hname.symm ▸ hne w hw page hpage]
    exact htext

namespace Copies

theorem of_spares (h : plan.Spares target t t') : plan.Copies target [] t t' where
  isDir := h.isDir
  names := nofun
  last := nofun
  others page hpage _ := h.read page hpage

theorem append (h : plan.Copies target ws t t') (h' : plan.Copies target vs t' t'') :
    plan.Copies target (ws ++ vs) t t'' where
  isDir l hl := h'.isDir l (h.isDir l hl)
  names := List.forall_mem_append.2 ⟨h.names, h'.names⟩
  last page hpage w hw := by
    rw [List.reverse_append, List.find?_append] at hw
    cases hfind : vs.reverse.find? (fun v => v.1.name = page.name) with
    | some v =>
      rw [hfind, Option.some_or, Option.some.injEq] at hw
      exact hw ▸ h'.last page hpage v hfind
    | none =>
      rw [hfind, Option.none_or] at hw
      refine h'.others page hpage (fun v hv hname => ?_) _ (h.last page hpage w hw)
      exact List.find?_eq_none.1 hfind v (List.mem_reverse.2 hv) (decide_eq_true hname)
  others page hpage hne text htext := by
    rw [List.forall_mem_append] at hne
    exact h'.others page hpage hne.2 text (h.others page hpage hne.1 text htext)

/-- The copies hold all texts exactly if no two of one name differ. -/
theorem read_iff (h : plan.Copies target ws t t') (hws : ∀ w ∈ ws, plan.IsPage w.1) :
    (∀ w ∈ ws, t'.read? plan.here (target / Path.ofString w.1.name) = some w.2) ↔
      ∀ v ∈ ws, ∀ w ∈ ws, v.1.name = w.1.name → v.2 = w.2 := by
  constructor
  · intro hread v hv w hw hname
    have hv := hread v hv
    rw [hname, hread w hw, Option.some.injEq] at hv
    exact hv.symm
  · intro heq w hw
    obtain ⟨v, hv⟩ : ∃ v, ws.reverse.find? (fun v => v.1.name = w.1.name) = some v := by
      rw [← Option.isSome_iff_exists, List.find?_isSome]
      exact ⟨w, List.mem_reverse.2 hw, decide_eq_true rfl⟩
    have hmem := List.mem_reverse.1 (List.mem_of_find?_eq_some hv)
    have hname : v.1.name = w.1.name := by simpa using List.find?_some hv
    rw [h.last w.1 (hws w hw) v hv, heq v hmem w hw hname]

theorem of_wrote {t₁ t₂ : Tree} (hwrote : Tree.Wrote plan.here ws t t₁) (hgrows : t₁.Grows t₂)
    (hcopied : Tree.Wrote plan.here ((ws.map Prod.fst).map (Run.copyOf t₂ plan.here target)) t₂ t')
    (hws : ∀ w ∈ ws, Tree.EndsInName w.1) : plan.Copies target ws t t' := by
  have hcopies (v : Path × String)
      (hv : v ∈ (ws.map Prod.fst).map (Run.copyOf t₂ plan.here target)) :
      ∃ w ∈ ws, Tree.EndsInName v.1 ∧ v.1.name = w.1.name := by
    rw [List.map_map] at hv
    obtain ⟨w, hw, rfl⟩ := List.mem_map.1 hv
    obtain ⟨hcopy, hname⟩ := (hws w hw).join target
    exact ⟨w, hw, hcopy, hname⟩
  have hnames (v : Path × String)
      (hv : v ∈ (ws.map Prod.fst).map (Run.copyOf t₂ plan.here target)) :
      Tree.EndsInName v.1 := by
    obtain ⟨-, -, hcopy, -⟩ := hcopies v hv
    exact hcopy
  refine
    { isDir := fun l hl => (hcopied.isDir l).trans (hgrows.isDir ((hwrote.isDir l).trans hl))
      names := hws
      last := fun page hpage w hw => ?_
      others := fun page hpage hne text htext => ?_ }
  · have hmem := List.mem_reverse.1 (List.mem_of_find?_eq_some hw)
    have hname : w.1.name = page.name := by simpa using List.find?_some hw
    rw [← hname] at hw ⊢
    -- the file that is copied last holds the text that was written last
    have hcopy : Run.copyOf t₂ plan.here target w.1 =
        (target / Path.ofString w.1.name, w.2) := by
      rw [Run.copyOf, hgrows.read? (hwrote.read_of_last hws hw)]
      rfl
    have hlast : ((ws.map Prod.fst).map (Run.copyOf t₂ plan.here target)).reverse.find?
        (fun v => v.1.name = (target / Path.ofString w.1.name).name) =
          some (target / Path.ofString w.1.name, w.2) := by
      rw [List.map_map, ← List.map_reverse, List.find?_map, ← hcopy, Option.map_eq_some_iff]
      refine ⟨w, ?_, rfl⟩
      rw [← hw]
      refine List.find?_congr fun v hv => ?_
      show decide ((target / Path.ofString v.1.name).name = _) = _
      rw [((hws v (List.mem_reverse.1 hv)).join target).2, ((hws w hmem).join target).2]
    exact hcopied.read_of_last (w := (target / Path.ofString w.1.name, w.2)) hnames hlast
  · obtain ⟨hcopy, hname⟩ := hpage.name.join target
    rw [hcopied.read_of_name_ne hnames hcopy]
    · refine hgrows.read? ?_
      rw [hwrote.read_of_name_ne hws hcopy fun w hw => hname.symm ▸ hne w hw]
      exact htext
    · intro v hv
      obtain ⟨w, hw, -, hvname⟩ := hcopies v hv
      rw [hvname, hname]
      exact hne w hw

end Copies

end Plan

/-! ## One conversion -/

namespace Project

open Run

variable {p : Project} {plan : Plan} {programs : Programs} {target : Path} {s s' : Session}
  {n : Nat}

def GeneratorSpares (plan : Plan) (programs : Programs) (target : Path) (p : Project) : Prop :=
  ∀ generator, plan.generator = some generator → ∀ t o,
    programs t p.input [generator, p.doxyfilePath.toString] = some o →
      plan.Spares target t o.tree

theorem endsInName_doxyfilePath (p : Project) :
    Tree.EndsInName p.doxyfilePath ∧ p.doxyfilePath.name = "Doxyfile" := by
  have hfile : Tree.EndsInName ⟨0, ["Doxyfile"]⟩ :=
    { parts := ⟨[], rfl⟩
      component := Path.isComponent_of_mem (s := "Doxyfile") (by decide)
      ne_dots := by decide }
  exact hfile.join p.output

theorem writeDoxyfile_spec {file : Path} (hgenerator : plan.generator ≠ none)
    (h : Ends (p.writeDoxyfile plan.here) s file s') :
    file = p.doxyfilePath ∧ plan.Spares target s.tree s'.tree := by
  obtain ⟨_, s₁, hdirs, h⟩ := ends_bind.1 h
  obtain ⟨_, s₂, hwrite, h⟩ := ends_bind.1 h
  obtain ⟨rfl, rfl⟩ := ends_pure.1 h
  obtain ⟨hgrows, -⟩ := makeDirs_spec hdirs
  obtain ⟨hends, hname⟩ := p.endsInName_doxyfilePath
  refine ⟨rfl, (Plan.spares_of_grows hgrows).trans (Plan.spares_of_wrote (write_spec hwrite) ?_ ?_)⟩
  · intro w hw
    obtain rfl := List.mem_singleton.1 hw
    exact hends
  · intro w hw page hpage
    obtain rfl := List.mem_singleton.1 hw
    rw [hname]
    exact (hpage.ne_doxyfile hgenerator).symm

theorem generate_spares {generator : String} {o : Outcome}
    (hgenerator : plan.generator = some generator)
    (hspares : p.GeneratorSpares plan programs target)
    (h : Ends (p.generate plan.here programs generator) s o s') :
    plan.Spares target s.tree s'.tree := by
  obtain ⟨file, s₁, hfile, h⟩ := ends_bind.1 h
  obtain ⟨rfl, hspared⟩ : file = p.doxyfilePath ∧ plan.Spares target s.tree s₁.tree :=
    writeDoxyfile_spec (by simp [hgenerator]) hfile
  obtain ⟨_, s₂, hreport, h⟩ := ends_bind.1 h
  obtain ⟨_, _, hget, h⟩ := ends_bind.1 h
  obtain ⟨rfl, rfl⟩ := ends_get.1 hget
  rw [← tree_report hreport] at hspared
  cases hrun : programs s₂.tree p.input [generator, p.doxyfilePath.toString] with
  | none =>
    simp only [hrun] at h
    exact absurd h not_ends_throw
  | some o' =>
    simp only [hrun] at h
    obtain ⟨_, s₃, hmodify, h⟩ := ends_bind.1 h
    have htree : s₃.tree = o'.tree := by rw [ends_modify.1 hmodify]
    have hlast : s'.tree = s₃.tree := by
      split at h
      · obtain ⟨_, _, hthrow, -⟩ := ends_bind.1 h
        exact absurd hthrow not_ends_throw
      · obtain ⟨_, s₄, hreports, h⟩ := ends_bind.1 h
        obtain ⟨-, rfl⟩ := ends_pure.1 h
        exact tree_reports hreports
    rw [hlast, htree]
    exact hspared.trans (hspares generator hgenerator _ _ hrun)

theorem prepare_spares (hspares : p.GeneratorSpares plan programs target)
    (h : Ends (p.prepare plan programs) s () s') : plan.Spares target s.tree s'.tree := by
  obtain ⟨_, s₁, hreport, h⟩ := ends_bind.1 h
  rw [← tree_report hreport]
  cases hgenerator : plan.generator with
  | none =>
    rw [hgenerator] at h
    rw [tree_report h]
    exact Plan.spares_of_grows (.refl _)
  | some generator =>
    rw [hgenerator] at h
    obtain ⟨o, s₂, hgenerate, h⟩ := ends_bind.1 (show Ends
      (p.generate plan.here programs generator >>= fun _ => pure ()) s₁ () s' from h)
    obtain ⟨-, rfl⟩ := ends_pure.1 h
    exact generate_spares hgenerator hspares hgenerate

def textsFrom (p : Project) (read? : Path → Option String) : List (Path × String) :=
  match (p.pages read?).value with
  | .ok b => p.texts b.compounds
  | .error _ => []

def written (plan : Plan) (programs : Programs) (p : Project) (s : Session) :
    List (Path × String) :=
  p.textsFrom ((outcome (p.prepare plan programs) s).2.tree.read? plan.here)

theorem convert_copies (hcopyTo : plan.copyTo = some target) (hbelow : s.tree.Below plan.here)
    (hspares : p.GeneratorSpares plan programs target)
    (h : Ends (p.convert plan programs) s n s') :
    plan.Copies target (p.written plan programs s) s.tree s'.tree := by
  obtain ⟨s₁, b, t, s₂, hprepare, hb, -, hgrows, hdir, hwrote, hcopy⟩ := convert_steps h
  have hwritten : p.written plan programs s = p.texts b.compounds := by
    rw [written, show outcome (p.prepare plan programs) s = (.ok (), s₁) from hprepare, textsFrom,
      hb]
  have hspared := prepare_spares hspares hprepare
  have hbelow' : t.Below plan.here := hbelow.mono fun l hl => hgrows.isDir (hspared.isDir l hl)
  have hnames (w : Path × String) (hw : w ∈ p.texts b.compounds) : Tree.EndsInName w.1 :=
    endsInName_of_mem_files hdir hbelow' hwrote (List.mem_map_of_mem hw)
  rw [hcopyTo] at hcopy
  obtain ⟨t', hgrows', -, hcopied, -⟩ := copyPages_spec (fun f hf =>
    endsInName_of_mem_files hdir hbelow' hwrote hf) hcopy
  rw [hwritten]
  exact (Plan.Copies.of_spares (hspared.trans (Plan.spares_of_grows hgrows))).append
    (.of_wrote hwrote hgrows' hcopied hnames)

end Project

/-! ## All conversions -/

namespace Plan

open Run Project

variable {plan : Plan} {programs : Programs} {target : Path} {projects : List Project}
  {s s' : Session}

/-- Projects are converted in turn, and none fails. -/
inductive Converts (plan : Plan) (programs : Programs) :
    List Project → Session → Session → Prop where
  | nil (s : Session) : Converts plan programs [] s s
  | cons {p : Project} {ps : List Project} {s s₁ s' : Session} {n : Nat}
      (first : Ends (p.convert plan programs) s n s₁) (rest : Converts plan programs ps s₁ s') :
      Converts plan programs (p :: ps) s s'

theorem ends_of_attempt {p : Project} (h : Ends (p.attempt plan programs) s false s') :
    ∃ n, Ends (p.convert plan programs) s n s' := by
  unfold attempt at h
  obtain ⟨r, s₁, hconvert, h⟩ := ends_bind.1 h
  have hconvert : outcome (p.convert plan programs) s = (r, s₁) := by
    obtain ⟨hr, hs⟩ := Prod.mk.inj hconvert
    exact Prod.ext (Except.ok.inj hr) hs
  cases r with
  | ok n =>
    obtain ⟨-, rfl⟩ := ends_pure.1 h
    exact ⟨n, hconvert⟩
  | error e =>
    -- a failure answers `true` or crashes
    obtain ⟨event, s₂, -, h⟩ := ends_bind.1 h
    obtain ⟨_, s₃, -, h⟩ := ends_bind.1 h
    cases (ends_pure.1 h).1

theorem converts_of_mapM {flags : List Bool}
    (h : Ends (projects.mapM (attempt plan programs)) s flags s') (hflags : flags.count true = 0) :
    plan.Converts programs projects s s' := by
  induction projects generalizing s flags with
  | nil =>
    obtain ⟨-, rfl⟩ := ends_pure.1 h
    exact .nil s
  | cons p projects ih =>
    rw [List.mapM_cons] at h
    obtain ⟨flag, s₁, hfirst, h⟩ := ends_bind.1 h
    obtain ⟨flags', s₂, hrest, h⟩ := ends_bind.1 h
    obtain ⟨rfl, rfl⟩ := ends_pure.1 h
    cases flag with
    | true => simp at hflags
    | false =>
      obtain ⟨n, hends⟩ := ends_of_attempt hfirst
      exact .cons hends (ih hrest (by simpa using hflags))

theorem converts_of_carryOut (h : Ends (plan.carryOut programs) s 0 s')
    (hfound : (discover s.tree plan.here plan.config plan.output).value = some (.ok projects)) :
    plan.Converts programs projects
      { s with log := s.log ++ (discover s.tree plan.here plan.config plan.output).log } s' := by
  unfold carryOut at h
  obtain ⟨_, _, hget, h⟩ := ends_bind.1 h
  obtain ⟨rfl, rfl⟩ := ends_get.1 hget
  obtain ⟨_, s₀, hmodify, h⟩ := ends_bind.1 h
  obtain rfl := ends_modify.1 hmodify
  simp only [hfound] at h
  obtain ⟨flags, s₁, hends, h⟩ := ends_bind.1 h
  cases hcount : flags.count true with
  | zero =>
    rw [hcount] at h
    obtain ⟨-, rfl⟩ := ends_pure.1 h
    exact converts_of_mapM hends hcount
  | succ count =>
    rw [hcount] at h
    obtain ⟨_, s₂, -, h⟩ := ends_bind.1 h
    cases (ends_pure.1 h).1

def writtenBy (plan : Plan) (programs : Programs) : List Project → Session → List (Path × String)
  | [], _ => []
  | p :: ps, s =>
    p.written plan programs s ++
      plan.writtenBy programs ps (outcome (p.convert plan programs) s).2

theorem Converts.copies (h : plan.Converts programs projects s s')
    (hcopyTo : plan.copyTo = some target)
    (hspares : ∀ p ∈ projects, p.GeneratorSpares plan programs target)
    (hbelow : s.tree.Below plan.here) :
    plan.Copies target (plan.writtenBy programs projects s) s.tree s'.tree := by
  induction h with
  | nil s => exact .of_spares (spares_of_grows (.refl _))
  | @cons p ps s s₁ s' n hfirst _ ih =>
    rw [List.forall_mem_cons] at hspares
    have hcopies := convert_copies hcopyTo hbelow hspares.1 hfirst
    have hrest := ih hspares.2 (hbelow.mono hcopies.isDir)
    rw [writtenBy, show outcome (p.convert plan programs) s = (.ok n, s₁) from hfirst]
    exact hcopies.append hrest

def written (plan : Plan) (programs : Programs) (s : Session) : List (Path × String) :=
  let found := discover s.tree plan.here plan.config plan.output
  match found.value with
  | some (.ok projects) => plan.writtenBy programs projects { s with log := s.log ++ found.log }
  | _ => []

/-- A run without failures leaves a copy of every page that was written exactly if no two
pages of one name differ. -/
theorem copies_kept_iff (plan : Plan) (programs : Programs) (target : Path) (s s' : Session)
    (projects : List Project) (hcopyTo : plan.copyTo = some target)
    (hbelow : s.tree.Below plan.here)
    (hfound : (discover s.tree plan.here plan.config plan.output).value = some (.ok projects))
    (hspares : ∀ p ∈ projects, p.GeneratorSpares plan programs target)
    (hnames : plan.generator ≠ none → ∀ w ∈ plan.written programs s, w.1.name ≠ "Doxyfile")
    (hrun : Ends (plan.carryOut programs) s 0 s') :
    (∀ w ∈ plan.written programs s,
      s'.tree.read? plan.here (target / Path.ofString w.1.name) = some w.2) ↔
    ∀ v ∈ plan.written programs s, ∀ w ∈ plan.written programs s,
      v.1.name = w.1.name → v.2 = w.2 := by
  have hcopies := (converts_of_carryOut hrun hfound).copies hcopyTo hspares hbelow
  have hwritten : plan.written programs s = plan.writtenBy programs projects
      { s with log := s.log ++ (discover s.tree plan.here plan.config plan.output).log } := by
    rw [written, hfound]
  rw [hwritten] at hnames ⊢
  exact hcopies.read_iff fun w hw => ⟨hcopies.names w hw, fun hgen => hnames hgen w hw⟩

def documents : List (Location × Entry) :=
  [(["docs"], .dir), (["docs", "a"], .dir), (["docs", "a", "xml"], .dir),
    (["docs", "b"], .dir), (["docs", "b", "xml"], .dir),
    (["docs", "a", "xml", "index.xml"], .file
      ("<doxygenindex><compound refid=\"s\" kind=\"class\">" ++
        "<name>Shape</name></compound></doxygenindex>") false),
    (["docs", "a", "xml", "s.xml"], .file
      ("<doxygen><compounddef id=\"s\" kind=\"class\">" ++
        "<compoundname>Shape</compoundname></compounddef></doxygen>") false),
    (["docs", "b", "xml", "index.xml"], .file "<doxygenindex></doxygenindex>" false)]

def copyAll (generator : Option String) : Plan where
  here := []
  config := ⟨1, ["doxymd.yml"]⟩
  generator := generator
  copyTo := some (.ofString "site")

/-- A generator that leaves the documents of both projects behind. -/
def documenting : Programs := fun t _ _ => some ⟨⟨t.entries ++ documents⟩, 0, "", ""⟩

def ownIndex : Session where
  tree := ⟨[(["doxymd.yml"], .file "projects: [a, b]" false), (["b"], .dir),
    (["b", "doxymd.yml"], .file "index: b.md" false)]⟩

theorem copies_kept_ownIndex : ∃ s',
    Ends ((copyAll (some "doxygen")).carryOut documenting) ownIndex 0 s' ∧
      ((copyAll (some "doxygen")).written documenting ownIndex).map (·.1.name) =
        ["shape.md", "index.md", "b.md"] ∧
      ∀ w ∈ (copyAll (some "doxygen")).written documenting ownIndex,
        s'.tree.read? [] (Path.ofString "site" / Path.ofString w.1.name) = some w.2 := by
  have hnames : ((copyAll (some "doxygen")).written documenting ownIndex).map (·.1.name) =
      ["shape.md", "index.md", "b.md"] := by
    decide +kernel
  have hexit : (outcome ((copyAll (some "doxygen")).carryOut documenting) ownIndex).1 = .ok 0 := by
    decide +kernel
  have hfound : (discover ownIndex.tree [] ⟨1, ["doxymd.yml"]⟩ none).projects?.map
      List.length = some 2 := by
    decide +kernel
  obtain ⟨projects, hprojects, -⟩ := exists_found_of_map hfound
  have hspares (p : Project) :
      p.GeneratorSpares (copyAll (some "doxygen")) documenting (.ofString "site") := by
    rintro _ - t o hrun
    obtain rfl := Option.some.inj hrun
    exact spares_of_grows (Tree.grows_append t documents)
  have hdoxyfile (w : Path × String)
      (hw : w ∈ (copyAll (some "doxygen")).written documenting ownIndex) :
      w.1.name ≠ "Doxyfile" := by
    have hmem := List.mem_map_of_mem (f := fun w : Path × String => w.1.name) hw
    rw [hnames] at hmem
    rintro hname
    rw [hname] at hmem
    revert hmem
    decide
  have hnodup : (((copyAll (some "doxygen")).written documenting ownIndex).map
      (·.1.name)).Nodup := by
    rw [hnames]
    decide
  have hrun := ends_of_toOption (congrArg Except.toOption hexit)
  -- the run stands for what it comes to, so that nothing computes it again
  generalize (outcome ((copyAll (some "doxygen")).carryOut documenting) ownIndex).2 = s' at hrun
  have hkept := copies_kept_iff (copyAll (some "doxygen")) documenting (.ofString "site")
    ownIndex s' projects rfl (fun l hl hne => absurd (List.prefix_nil.1 hl) hne) hprojects
    (fun p _ => hspares p) (fun _ => hdoxyfile) hrun
  refine ⟨s', hrun, hnames, hkept.2 fun v hv w hw hname => ?_⟩
  rw [List.inj_on_of_nodup_map hnodup hv hw hname]

/-- Settings that list two directories, each with the usual index. -/
def twoIndexes : Session where
  tree := ⟨(["doxymd.yml"], .file "projects: [a, b]" false) :: documents⟩

def emptyIndex : String := "---\nid: index\ntitle: API Reference\n---\n"

/-- The index of the second project takes the place of the first one's. -/
theorem not_copies_kept_twoIndexes : ∃ projects s',
    (discover twoIndexes.tree [] ⟨1, ["doxymd.yml"]⟩ none).value = some (.ok projects) ∧
      projects.Pairwise (fun p q => ¬ Path.SameDirectory p.output q.output) ∧
      Ends ((copyAll none).carryOut documenting) twoIndexes 0 s' ∧
      ¬ ∀ w ∈ (copyAll none).written documenting twoIndexes,
        s'.tree.read? [] (Path.ofString "site" / Path.ofString w.1.name) = some w.2 := by
  have houtputs : (discover twoIndexes.tree [] ⟨1, ["doxymd.yml"]⟩ none).projects?.map
      (List.map Project.output) = some [⟨1, ["docs", "a"]⟩, ⟨1, ["docs", "b"]⟩] := by
    decide +kernel
  have hexit : (outcome ((copyAll none).carryOut documenting) twoIndexes).1 = .ok 0 := by
    decide +kernel
  have hwritten : ((copyAll none).written documenting twoIndexes).map
      (fun w => (w.1.name, decide (w.2 = emptyIndex))) =
        [("shape.md", false), ("index.md", false), ("index.md", true)] := by
    decide +kernel
  have hcopy : (outcome ((copyAll none).carryOut documenting) twoIndexes).2.tree.read? []
      (Path.ofString "site" / Path.ofString "index.md") = some emptyIndex := by
    decide +kernel
  obtain ⟨projects, hprojects, houtputs⟩ := exists_found_of_map houtputs
  have hrun := ends_of_toOption (congrArg Except.toOption hexit)
  generalize (outcome ((copyAll none).carryOut documenting) twoIndexes).2 = s' at hcopy hrun
  refine ⟨projects, s', hprojects, ?_, hrun, fun hkept => ?_⟩
  · rw [← List.pairwise_map (f := Project.output) (R := fun p q => ¬ Path.SameDirectory p q),
      houtputs]
    decide
  · obtain ⟨w, hw, hindex⟩ : ∃ w ∈ (copyAll none).written documenting twoIndexes,
        (w.1.name, decide (w.2 = emptyIndex)) = ("index.md", false) := by
      rw [← List.mem_map, hwritten]
      decide
    obtain ⟨hname, hne⟩ := Prod.mk.inj hindex
    rw [← hname, hkept w hw, Option.some.injEq] at hcopy
    exact of_decide_eq_false hne hcopy

end Plan

end DoxPages
