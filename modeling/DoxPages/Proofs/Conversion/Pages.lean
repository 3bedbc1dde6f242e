import DoxPages.Proofs.Conversion.Steps

/-!
# Pages in files

Each page is written once, and copies are written to other files: a copy to a file
of the project would have the name of that file, which then cannot be copied to
itself.
-/

namespace DoxPages.Run

open Docs

variable {s s' : Session} {here : Location} {dir : Path}

def pageFile (dir : Path) (page : String) : Path := dir / Path.ofString (page ++ ".md")

def pageTexts (dir : Path) (compounds : List (String × Compound)) : List (Path × String) :=
  compounds.map fun e => (pageFile dir e.1, Page.compound e.2)

/-! ## Writing -/

theorem writeCompounds_spec {total written : Nat} {cs : List (String × Compound)}
    {files : List Path} (h : Ends (writeCompounds here dir total written cs) s files s') :
    files = (pageTexts dir cs).map Prod.fst ∧
      Tree.Wrote here (pageTexts dir cs) s.tree s'.tree := by
  induction cs generalizing written s files with
  | nil =>
    obtain ⟨rfl, rfl⟩ := ends_pure.1 h
    exact ⟨rfl, .refl here s.tree⟩
  | cons e cs ih =>
    obtain ⟨page, c⟩ := e
    obtain ⟨_, s₁, hreport, h⟩ := ends_bind.1 h
    obtain ⟨_, s₂, hwrite, h⟩ := ends_bind.1 h
    -- every so often a line is printed before the next page
    obtain ⟨s₃, htree, h⟩ : ∃ s₃ : Session, s₃.tree = s₂.tree ∧
        Ends (do return pageFile dir page :: (← writeCompounds here dir total (written + 1) cs))
          s₃ files s' := by
      simp only at h
      split at h
      · obtain ⟨_, s₃, hprint, h⟩ := ends_bind.1 h
        exact ⟨s₃, tree_print hprint, h⟩
      · exact ⟨s₂, rfl, h⟩
    obtain ⟨rest, s₄, hrest, h⟩ := ends_bind.1 h
    obtain ⟨rfl, rfl⟩ := ends_pure.1 h
    obtain ⟨rfl, hwrote⟩ := ih hrest
    have hfirst := write_spec hwrite
    rw [tree_report hreport, ← htree] at hfirst
    exact ⟨rfl, hfirst.append hwrote⟩

theorem writePages_spec {compounds : List (String × Compound)} {files : List Path}
    (h : Ends (writePages here dir compounds) s files s') :
    files = (pageTexts dir compounds).map Prod.fst ∧
      ∃ t, s.tree.Grows t ∧ t.HasDir here dir ∧
        Tree.Wrote here (pageTexts dir compounds) t s'.tree := by
  obtain ⟨_, s₁, hdirs, h⟩ := ends_bind.1 h
  obtain ⟨_, s₂, hprint, h⟩ := ends_bind.1 h
  obtain ⟨hgrows, hdir⟩ := makeDirs_spec hdirs
  obtain ⟨hfiles, hwrote⟩ := writeCompounds_spec h
  rw [tree_print hprint] at hwrote
  exact ⟨hfiles, s₁.tree, hgrows, hdir, hwrote⟩

def indexPage (index : String) (compounds : List Compound) : String :=
  Page.index (Path.ofString index).stem Page.indexTitle compounds

theorem writeIndex_spec {index : String} {b : Builder} {file : Path}
    (hdir : s.tree.HasDir here dir) (h : Ends (writeIndex here dir index b) s file s') :
    file = dir / Path.ofString index ∧
      Tree.Wrote here [(dir / Path.ofString index, indexPage index (b.compounds.map Prod.snd))]
        s.tree s'.tree := by
  obtain ⟨_, s₁, hdirs, h⟩ := ends_bind.1 h
  simp only at h
  split at h
  · obtain ⟨_, _, hthrow, -⟩ := ends_bind.1 h
    exact absurd hthrow not_ends_throw
  · obtain ⟨_, s₂, hwrite, h⟩ := ends_bind.1 h
    obtain ⟨rfl, rfl⟩ := ends_pure.1 h
    have hwrote := write_spec hwrite
    rw [makeDirs_of_hasDir hdirs hdir] at hwrote
    exact ⟨rfl, hwrote⟩

/-! ## Copying -/

def copyOf (t : Tree) (here : Location) (target page : Path) : Path × String :=
  (target / Path.ofString page.name, (t.read? here page).getD "")

theorem read?_of_wrote_copies {t t' : Tree} {target page : Path} {ws : List (Path × String)}
    (h : Tree.Wrote here ws t t')
    (hws : ∀ w ∈ ws, ∃ q, Tree.EndsInName q ∧ w.1 = target / Path.ofString q.name)
    (hpage : Tree.EndsInName page)
    (hne : t.locate? here page ≠ t.locate? here (target / Path.ofString page.name)) :
    t'.read? here page = t.read? here page := by
  have hnone : (ws.reverse.find? fun w => t.locate? here w.1 = t.locate? here page) = none := by
    rw [List.find?_eq_none]
    intro w hw hloc
    rw [decide_eq_true_eq] at hloc
    obtain ⟨q, hq, heq⟩ := hws w (List.mem_reverse.1 hw)
    obtain ⟨l, hl, -⟩ := h.located w (List.mem_reverse.1 hw)
    -- a copy over `page` has its name, so it lands where the copy of `page` does
    obtain ⟨hcopy, hname⟩ := hq.join target
    have hname : q.name = page.name :=
      hname.symm.trans (hcopy.name_eq hpage (heq ▸ hl) (hloc ▸ hl))
    exact hne (by rw [← hloc, heq, hname])
  rw [h.read, hnone]
  rfl

/-- What is written when pages are copied; no page is its own copy. -/
theorem copyAll_spec {pages : List Path} {target : Path} {u : Unit}
    (hnames : ∀ page ∈ pages, Tree.EndsInName page)
    (h : Ends (pages.forM fun page => do
      report (.copying page target)
      copy here page (target / Path.ofString page.name)) s u s') :
    Tree.Wrote here (pages.map (copyOf s.tree here target)) s.tree s'.tree ∧
      ∀ page ∈ pages, s.tree.locate? here page ≠
        s.tree.locate? here (target / Path.ofString page.name) := by
  induction pages generalizing s with
  | nil =>
    obtain ⟨-, rfl⟩ := ends_pure.1 h
    exact ⟨.refl here s.tree, nofun⟩
  | cons page pages ih =>
    obtain ⟨_, s₁, hstep, h⟩ := ends_bind.1 h
    obtain ⟨_, s₀, hreport, hcopy⟩ := ends_bind.1 hstep
    obtain ⟨hne, text, hread, hfirst⟩ := copy_spec hcopy
    rw [tree_report hreport] at hne hread hfirst
    rw [List.forall_mem_cons] at hnames
    obtain ⟨hwrote, hpages⟩ := ih hnames.2 h
    have hpages (q : Path) (hq : q ∈ pages) : s.tree.locate? here q ≠
        s.tree.locate? here (target / Path.ofString q.name) := by
      rw [← hfirst.locate, ← hfirst.locate]
      exact hpages q hq
    -- the pages that come later are still what they were
    have hlater : pages.map (copyOf s₁.tree here target) =
        pages.map (copyOf s.tree here target) := by
      refine List.map_congr_left fun q hq => ?_
      rw [copyOf, copyOf, read?_of_wrote_copies hfirst _ (hnames.2 q hq) (hpages q hq)]
      intro w hw
      obtain rfl := List.mem_singleton.1 hw
      exact ⟨page, hnames.1, rfl⟩
    have hcopyOf : copyOf s.tree here target page = (target / Path.ofString page.name, text) := by
      rw [copyOf, hread]
      rfl
    rw [hlater] at hwrote
    rw [List.map_cons, hcopyOf]
    exact ⟨hfirst.append hwrote, List.forall_mem_cons.2 ⟨hne, hpages⟩⟩

theorem copyPages_spec {pages : List Path} {target : Path} {u : Unit}
    (hnames : ∀ page ∈ pages, Tree.EndsInName page)
    (h : Ends (copyPages here pages target) s u s') :
    ∃ t, s.tree.Grows t ∧ t.HasDir here target ∧
      Tree.Wrote here (pages.map (copyOf t here target)) t s'.tree ∧
      ∀ page ∈ pages, s'.tree.read? here page = t.read? here page := by
  obtain ⟨_, s₁, hdirs, h⟩ := ends_bind.1 h
  obtain ⟨_, s₂, hcopies, h⟩ := ends_bind.1 h
  obtain ⟨hgrows, hdir⟩ := makeDirs_spec hdirs
  obtain ⟨hwrote, hpages⟩ := copyAll_spec hnames hcopies
  rw [tree_print h]
  refine ⟨s₁.tree, hgrows, hdir, hwrote, fun page hpage => ?_⟩
  refine read?_of_wrote_copies hwrote (fun w hw => ?_) (hnames page hpage) (hpages page hpage)
  obtain ⟨q, hq, rfl⟩ := List.mem_map.1 hw
  exact ⟨q, hnames q hq, rfl⟩

end DoxPages.Run
