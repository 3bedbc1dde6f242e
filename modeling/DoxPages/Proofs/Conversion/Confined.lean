import DoxPages.Proofs.Conversion.BadInput
import DoxPages.Proofs.Files.Regions
import DoxPages.Proofs.Log.Quiet
import DoxPages.Proofs.Source.Documents

/-!
# What a conversion changes and what it depends on

A conversion writes only below the directory of its pages, and it looks only at its
documents and at what stands there. `Parallel` puts both together for two sessions with
trees that agree off a region: what is done in the first one comes to the same in the
second, the trees still agree, and nothing else has changed. `Steady` steps keep this up.
-/

namespace DoxPages

open Docs Run

/-! ## Places of a project -/

namespace Project

/-- The directory that receives all that is made for a project. -/
def home (here : Location) (p : Project) : Location :=
  p.output.parts.foldl Path.enter (Tree.start here p.output)

def pageHome (here : Location) (p : Project) : Location := p.home here ++ ["out"]

/-- Neither the way to the project's directory nor anything in it lies in the region `D`. -/
structure ClearOf (D : Location → Prop) (here : Location) (p : Project) : Prop where
  route : ∀ l ∈ Tree.routeOf here p.output, ¬ D l
  home : ∀ l, p.home here <+: l → ¬ D l

variable {D : Location → Prop} {here : Location} {p : Project} {t : Tree}

theorem ofString_plain {name : String} (h : '/' ∉ name.toList) :
    Path.ofString name = ⟨0, []⟩ ∨ Path.ofString name = ⟨0, [name]⟩ := by
  by_cases hne : name = ""
  · rw [hne]
    exact .inl (by decide)
  · by_cases hdot : name = "."
    · rw [hdot]
      exact .inl (by decide)
    · exact .inr (Path.ofString_component ⟨h, hne, hdot⟩)

theorem pageDir_eq (p : Project) : p.pageDir = ⟨p.output.slashes, p.output.parts ++ ["out"]⟩ := by
  rw [pageDir, show Path.ofString "out" = ⟨0, ["out"]⟩ by decide]
  rfl

theorem foldl_pageDir (here : Location) (p : Project) :
    p.pageDir.parts.foldl Path.enter (Tree.start here p.pageDir) = p.pageHome here := by
  rw [pageDir_eq, List.foldl_append]
  rfl

theorem mem_routeOf_pageDir {l : Location} (h : l ∈ Tree.routeOf here p.pageDir) :
    l ∈ Tree.routeOf here p.output ∨ p.home here <+: l := by
  rw [pageDir, Tree.routeOf_join (by decide),
    show Path.ofString "out" = ⟨0, ["out"]⟩ by decide] at h
  refine h.imp_right fun h => ?_
  rcases List.mem_cons.1 h with rfl | h
  · exact List.prefix_rfl
  · obtain rfl := List.mem_singleton.1 h
    exact List.prefix_append _ _

/-- A file of the page directory is reached through the project's directory. -/
theorem mem_routeOf_file {name : String} (hname : '/' ∉ name.toList) {l : Location}
    (h : l ∈ Tree.routeOf here (p.pageDir / Path.ofString name)) :
    l ∈ Tree.routeOf here p.output ∨ p.home here <+: l := by
  have hout : p.home here <+: p.pageHome here := List.prefix_append _ _
  rcases ofString_plain hname with hparts | hparts
  · rw [Tree.routeOf_join (by rw [hparts]; rfl), hparts, foldl_pageDir] at h
    rcases h with h | h
    · exact mem_routeOf_pageDir h
    · obtain rfl := List.mem_singleton.1 h
      exact .inr hout
  · rw [Tree.routeOf_join (by rw [hparts]; rfl), hparts, foldl_pageDir] at h
    rcases h with h | h
    · exact mem_routeOf_pageDir h
    · right
      rcases List.mem_cons.1 h with rfl | h
      · exact hout
      · obtain rfl := List.mem_singleton.1 h
        rw [Path.enter]
        split
        · exact ⟨[], by rw [List.append_nil, pageHome, List.dropLast_concat]⟩
        · exact hout.trans (List.prefix_append _ _)

theorem ClearOf.pageDir (h : p.ClearOf D here) : ∀ l ∈ Tree.routeOf here p.pageDir, ¬ D l :=
  fun l hl => (mem_routeOf_pageDir hl).elim (h.route l) (h.home l)

theorem ClearOf.file (h : p.ClearOf D here) {name : String} (hname : '/' ∉ name.toList) :
    ∀ l ∈ Tree.routeOf here (p.pageDir / Path.ofString name), ¬ D l :=
  fun l hl => (mem_routeOf_file hname hl).elim (h.route l) (h.home l)

theorem locate?_output (h : t.HasDir here p.output) :
    t.locate? here p.output = some (p.home here) ∧ t.isDir (p.home here) = true := by
  obtain ⟨l, hl, hd⟩ := h
  obtain rfl : l = p.home here := Tree.follow?_eq_foldl hl
  exact ⟨hl, hd⟩

theorem pageHome_prefix_of_locate? (hdir : t.HasDir here p.output) {name : String}
    (hname : '/' ∉ name.toList) {l : Location}
    (hl : t.locate? here (p.pageDir / Path.ofString name) = some l) (hfile : t.isDir l = false) :
    p.pageHome here <+: l := by
  have hend := Tree.follow?_eq_foldl hl
  rcases ofString_plain hname with hparts | hparts
  · have hjoin : p.pageDir / Path.ofString name = p.pageDir := by
      rw [hparts]
      show Path.join _ _ = _
      simp [Path.join, Path.isAbsolute]
    rw [hjoin, foldl_pageDir] at hend
    exact ⟨[], (List.append_nil _).trans hend.symm⟩
  · have hjoin : p.pageDir / Path.ofString name =
        ⟨p.pageDir.slashes, p.pageDir.parts ++ [name]⟩ := by
      rw [hparts]
      rfl
    rw [hjoin, List.foldl_append] at hend
    have hend : l = Path.enter (p.pageHome here) name := hend.trans (by rw [← foldl_pageDir]; rfl)
    rw [Path.enter] at hend
    split at hend
    · rw [pageHome, List.dropLast_concat] at hend
      rw [hend, (locate?_output hdir).2] at hfile
      cases hfile
    · rw [hend]
      exact List.prefix_append _ _

end Project

/-! ## Steps in two sessions -/

namespace Run

variable {α β : Type} {D : Location → Prop} {d : Location} {s s₀ : Session}

/-- Two outcomes, from `s` and from `s₀`, are the same off the region `D`: results and
reports are equal, trees agree, and changes of the first are in the directory `d`. -/
structure Parallel (D : Location → Prop) (d : Location) (s s₀ : Session)
    (o o₀ : Except Failure α × Session) : Prop where
  result : o.1 = o₀.1
  agrees : o.2.tree.AgreesOff D o₀.2.tree
  changes : s.tree.ChangesOnly d o.2.tree
  log : ∃ events : Log, events.Quiet ∧ o.2.log = s.log ++ events ∧ o₀.2.log = s₀.log ++ events

theorem Parallel.same (h : s.tree.AgreesOff D s₀.tree) {r : Except Failure α} {s' s₀' : Session}
    (htree : s'.tree = s.tree) (hlog : s'.log = s.log) (htree₀ : s₀'.tree = s₀.tree)
    (hlog₀ : s₀'.log = s₀.log) : Parallel D d s s₀ (r, s') (r, s₀') where
  result := rfl
  agrees := by
    rw [htree, htree₀]
    exact h
  changes := by
    rw [htree]
    exact .refl d _
  log := ⟨[], Log.quiet_nil, by simp [hlog], by simp [hlog₀]⟩

theorem Parallel.bind {m : Run α} {f : α → Run β}
    (hm : Parallel D d s s₀ (outcome m s) (outcome m s₀))
    (hf : ∀ a s₁ s₁₀, outcome m s = (.ok a, s₁) → outcome m s₀ = (.ok a, s₁₀) →
      Parallel D d s₁ s₁₀ (outcome (f a) s₁) (outcome (f a) s₁₀)) :
    Parallel D d s s₀ (outcome (m >>= f) s) (outcome (m >>= f) s₀) := by
  rw [outcome_bind, outcome_bind]
  obtain ⟨hresult, hagrees, hchanges, events, hquiet, hlog, hlog₀⟩ := hm
  revert hf hresult hagrees hchanges hlog hlog₀
  cases outcome m s with
  | mk r s₁ =>
    cases outcome m s₀ with
    | mk r₀ s₁₀ =>
      rintro hf rfl hagrees hchanges hlog hlog₀
      cases r with
      | error e => exact ⟨rfl, hagrees, hchanges, events, hquiet, hlog, hlog₀⟩
      | ok a =>
        obtain ⟨hresult', hagrees', hchanges', more, hquiet', hlog', hlog₀'⟩ :=
          hf a s₁ s₁₀ rfl rfl
        refine ⟨hresult', hagrees', hchanges.trans hchanges', events ++ more,
          hquiet.append hquiet', ?_, ?_⟩
        · rw [hlog', hlog, List.append_assoc]
        · rw [hlog₀', hlog₀, List.append_assoc]

theorem outcome_makeDirs (here : Location) (p : Path) (s : Session) :
    outcome (makeDirs here p) s =
      (if (s.tree.makeDirs (Tree.start here p) p.parts).2 then .ok () else .error .files,
        { s with tree := (s.tree.makeDirs (Tree.start here p) p.parts).1 }) := by
  unfold makeDirs
  rw [outcome_bind, outcome_get]
  dsimp only
  rw [outcome_bind, outcome_modify]
  dsimp only
  cases (s.tree.makeDirs (Tree.start here p) p.parts).2 <;> rfl

theorem outcome_write (here : Location) (p : Path) (text : String) (s : Session) :
    outcome (write here p text) s =
      match s.tree.write? here p text with
      | some t => (.ok (), { s with tree := t })
      | none => (.error .files, s) := by
  unfold write
  rw [outcome_bind, outcome_get]
  dsimp only
  cases s.tree.write? here p text <;> rfl

end Run

namespace Project

variable {α β : Type} {D : Location → Prop} {here : Location} {p : Project}

/-- The step does the same in sessions that agree off `D`, if the project's directory is
there, and changes only what stands below the directory of its pages. -/
def Steady (D : Location → Prop) (here : Location) (p : Project) (m : Run α) : Prop :=
  ∀ s s₀ : Session, s.tree.AgreesOff D s₀.tree → s.tree.HasDir here p.output →
    Parallel D (p.pageHome here) s s₀ (outcome m s) (outcome m s₀)

theorem steady_pure (a : α) : p.Steady D here (pure a) :=
  fun _ _ h _ => .same h rfl rfl rfl rfl

theorem steady_throw (e : Failure) : p.Steady D here (throw e : Run α) :=
  fun _ _ h _ => .same h rfl rfl rfl rfl

theorem steady_print (line : String) : p.Steady D here (print line) :=
  fun _ _ h _ => .same (r := .ok ()) h rfl rfl rfl rfl

theorem steady_report {e : Event} (he : e.level ≠ .error) : p.Steady D here (report e) :=
  fun _ _ h _ => ⟨rfl, h, .refl _ _, [e], Log.quiet_singleton he, rfl, rfl⟩

theorem Steady.bind {m : Run α} {f : α → Run β} (hm : p.Steady D here m)
    (hf : ∀ a, p.Steady D here (f a)) : p.Steady D here (m >>= f) := by
  intro s s₀ h hdir
  have hstep := hm s s₀ h hdir
  refine hstep.bind fun a s₁ s₁₀ h₁ h₁₀ => ?_
  rw [h₁, h₁₀] at hstep
  exact hf a s₁ s₁₀ hstep.agrees (hstep.changes.hasDir hdir)

section
variable (hclear : p.ClearOf D here)
include hclear

/-- Only the directory of the pages may be missing. -/
theorem steady_makeDirs : p.Steady D here (makeDirs here p.pageDir) := by
  intro s s₀ h hdir
  obtain ⟨hdone, hagrees⟩ := h.makeDirs hclear.pageDir
  obtain ⟨hlocate, hhome⟩ := locate?_output hdir
  have hmade : s.tree.makeDirs (Tree.start here p.pageDir) p.pageDir.parts =
      s.tree.makeDirs (p.home here) ["out"] := by
    rw [pageDir_eq]
    exact Tree.makeDirs_append hlocate hhome ["out"]
  rw [outcome_makeDirs, outcome_makeDirs, ← hdone]
  refine ⟨rfl, hagrees, ?_, [], Log.quiet_nil, by simp, by simp⟩
  simp only [hmade]
  exact Tree.changesOnly_makeDirs (by decide) (p.home here)

theorem steady_write {name : String} (hname : '/' ∉ name.toList) (text : String) :
    p.Steady D here (write here (p.pageDir / Path.ofString name) text) := by
  intro s s₀ h hdir
  have hwrite := h.write? (hclear.file hname) text
  have hchanges (t : Tree)
      (ht : s.tree.write? here (p.pageDir / Path.ofString name) text = some t) :
      s.tree.ChangesOnly (p.pageHome here) t :=
    Tree.changesOnly_write? ht fun l hl hfile => pageHome_prefix_of_locate? hdir hname hl hfile
  rw [outcome_write, outcome_write]
  revert hwrite hchanges
  generalize s.tree.write? here (p.pageDir / Path.ofString name) text = r
  generalize s₀.tree.write? here (p.pageDir / Path.ofString name) text = r₀
  intro hwrite hchanges
  cases hwrite with
  | none => exact .same h rfl rfl rfl rfl
  | some hagrees =>
    exact ⟨rfl, hagrees, hchanges _ rfl, [], Log.quiet_nil, by simp, by simp⟩

theorem steady_writeCompounds {cs : List (String × Compound)}
    (hnames : ∀ e ∈ cs, '/' ∉ e.1.toList) (total written : Nat) :
    p.Steady D here (writeCompounds here p.pageDir total written cs) := by
  induction cs generalizing written with
  | nil => exact steady_pure []
  | cons e cs ih =>
    rw [List.forall_mem_cons] at hnames
    have hname : '/' ∉ (e.1 ++ ".md").toList := by
      rw [String.toList_append, List.mem_append, not_or]
      exact ⟨hnames.1, by decide⟩
    refine .bind (steady_report nofun) fun _ => .bind (steady_write hclear hname _) fun _ => ?_
    have hrest : p.Steady D here (do
        return pageFile p.pageDir e.1 ::
          (← writeCompounds here p.pageDir total (written + 1) cs)) :=
      .bind (ih hnames.2 _) fun _ => steady_pure _
    simp only
    split
    · exact .bind (steady_print _) fun _ => hrest
    · exact hrest

theorem steady_writeIndex {index : String} (hindex : '/' ∉ index.toList) (b : Builder) :
    p.Steady D here (writeIndex here p.pageDir index b) := by
  have hwrite : p.Steady D here (do
      write here (p.pageDir / Path.ofString index) (indexPage index (b.compounds.map Prod.snd))
      return p.pageDir / Path.ofString index) :=
    .bind (steady_write hclear hindex _) fun _ => steady_pure _
  refine .bind (steady_makeDirs hclear) fun _ => ?_
  simp only
  split
  · exact .bind (steady_throw _) fun _ => hwrite
  · exact hwrite

theorem steady_publish {plan : Plan} (hcopyTo : plan.copyTo = none) (hhere : plan.here = here)
    {b : Builder} (hnames : ∀ e ∈ b.compounds, '/' ∉ e.1.toList)
    (hindex : '/' ∉ p.index.toList) : p.Steady D here (p.publish plan b) := by
  subst hhere
  have hpages : p.Steady D plan.here (writePages plan.here p.pageDir b.compounds) :=
    .bind (steady_makeDirs hclear) fun _ => .bind (steady_print _) fun _ =>
      steady_writeCompounds hclear hnames _ _
  unfold publish
  rw [hcopyTo]
  exact .bind hpages fun _ => .bind (steady_writeIndex hclear hindex b) fun _ =>
    .bind (steady_print _) fun _ => .bind (steady_pure _) fun _ => steady_pure _

end

end Project

end DoxPages
