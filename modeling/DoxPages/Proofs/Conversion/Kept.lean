import DoxPages.Conversion.Convert
import DoxPages.Proofs.Conversion.Pages
import DoxPages.Proofs.Docs.CompoundOrder
import Mathlib.Data.List.Dedup

/-!
# Which pages are kept

The page of a compound is a file of its own, named after its id; no two compounds
share an id. The index page is written last, to a file that the settings name. It
may be the file of a page: `kept_iff_indexApart` says that this is the only way in
which a page is lost.
-/

namespace DoxPages

open Docs Text

/-! ## The ids of pages -/

namespace Docs.Builder

/-- Every page stands under its id, which is made of the name of its compound. -/
structure Titled (b : Builder) : Prop where
  page_eq : ∀ e ∈ b.compounds, e.2.page = e.1
  key_eq : ∀ e ∈ b.compounds, e.1 = b.options.pagePrefix ++ onChars lower e.2.typeName
  nodup : (b.compounds.map Prod.fst).Nodup

theorem typeName_groupedPage (o : Options) (c : Source.Compound) :
    (groupedPage o c).typeName = bareName c := by
  unfold groupedPage
  simp only
  split <;> rfl

theorem titled_groupAll {o : Options} {cs : List Source.Compound} {b : Builder}
    (h : ((fresh o).groupAll cs).value = (b, none)) : b.Titled := by
  have hfresh := linked_fresh o
  obtain ⟨hoptions, hcompounds, -, -⟩ := hfresh.groupAll_none h
  have hpage {e : String × Compound} (he : e ∈ b.compounds) :
      ∃ c, e = (pageName o c, groupedPage o c) := by
    rw [hcompounds] at he
    obtain ⟨c, -, rfl⟩ := List.mem_map.1 he
    exact ⟨c, rfl⟩
  refine
    { page_eq := fun e he => ?_
      key_eq := fun e he => ?_
      nodup := (hfresh.groupAll h).nodup }
  · obtain ⟨c, rfl⟩ := hpage he
    exact page_groupedPage o c
  · obtain ⟨c, rfl⟩ := hpage he
    rw [typeName_groupedPage, hoptions]
    rfl

theorem Titled.convertAll {b : Builder} (hb : b.Titled) (hlinked : b.Linked)
    (cs : List Source.Compound) : (b.convertAll cs).value.Titled := by
  rw [hlinked.convertAll_eq]
  have hkept (k : String) (p : Compound) :
      (b.converted cs k p).page = p.page ∧ (b.converted cs k p).typeName = p.typeName := by
    unfold converted
    split
    · exact ⟨rfl, rfl⟩
    · exact ⟨rfl, rfl⟩
  refine
    { page_eq := ?_
      key_eq := ?_
      nodup := ?_ }
  · rintro _ he
    obtain ⟨e, hmem, rfl⟩ := List.mem_map.1 he
    rw [(hkept _ _).1]
    exact hb.page_eq e hmem
  · rintro _ he
    obtain ⟨e, hmem, rfl⟩ := List.mem_map.1 he
    rw [(hkept _ _).2]
    exact hb.key_eq e hmem
  · rw [List.map_map]
    exact hb.nodup

theorem titled_build {o : Options} {model : Source.Model} {b : Builder}
    (h : ((fresh o).build model).value = (b, none)) : b.Titled := by
  rw [build_eq] at h
  cases hall : ((fresh o).groupAll (documentedIn (fresh o).options model)).value with
  | mk b' e =>
    rw [hall] at h
    cases e with
    | some e => cases h
    | none =>
      obtain rfl := congrArg Prod.fst h
      exact (titled_groupAll hall).convertAll ((linked_fresh o).groupAll hall) _

end Docs.Builder

namespace Project

open Run

variable {p : Project} {plan : Plan} {programs : Programs} {s s' : Session} {n : Nat}
  {here : Location} {compounds : List (String × Compound)} {t t' t'' : Tree}

theorem titled_pages {read? : Path → Option String} {b : Builder}
    (h : (p.pages read?).value = .ok b) : b.Titled := by
  unfold pages at h
  split at h
  · cases h
  · cases h
  · rename_i o ho
    rw [Reported.value_bind] at h
    split at h
    · cases h
    · rename_i model hmodel
      rw [Reported.value_bind] at h
      split at h
      · cases h
      · rename_i b' hb'
        obtain rfl := Except.ok.inj h
        exact Builder.titled_build hb'

/-! ## Files -/

def indexFile (p : Project) : Path := p.pageDir / Path.ofString p.index

def texts (p : Project) (compounds : List (String × Compound)) : List (Path × String) :=
  pageTexts p.pageDir compounds ++
    [(p.indexFile, indexPage p.index (compounds.map Prod.snd))]

def files (p : Project) (compounds : List (String × Compound)) : List Path :=
  (p.texts compounds).map Prod.fst

def pageIds (p : Project) (compounds : List (String × Compound)) : List String :=
  compounds.map (fun e => e.2.page) ++ [(Path.ofString p.index).stem]

/-- No page is lost: each file holds its page, and each file and each id is there once. -/
structure Kept (p : Project) (here : Location) (compounds : List (String × Compound))
    (t : Tree) (count : Nat) : Prop where
  pages : ∀ e ∈ compounds,
    t.read? here (pageFile p.pageDir e.1) = some (Page.compound e.2)
  index : t.read? here p.indexFile = some (indexPage p.index (compounds.map Prod.snd))
  count_eq : count = ((p.files compounds).map (t.locate? here)).dedup.length
  nodup_ids : (p.pageIds compounds).Nodup

structure IndexApart (p : Project) (here : Location) (compounds : List (String × Compound))
    (t : Tree) : Prop where
  file : ∀ e ∈ compounds, t.locate? here (pageFile p.pageDir e.1) ≠ t.locate? here p.indexFile
  id : ∀ e ∈ compounds, e.2.page ≠ (Path.ofString p.index).stem

/-! ## Conversion -/

/-- What a conversion that ends has done: the texts are written one after another, and
what is done to the tree after that leaves their files alone. -/
structure Written (p : Project) (here : Location) (compounds : List (String × Compound))
    (t t' t'' : Tree) : Prop where
  dir : t.HasDir here p.pageDir
  below : t.Below here
  wrote : Tree.Wrote here (p.texts compounds) t t'
  isDir : ∀ l, t'.isDir l = true → t''.isDir l = true
  read : ∀ f ∈ p.files compounds, ∀ text, t'.read? here f = some text →
    t''.read? here f = some text

theorem pageFile_mem_files {e : String × Compound} (he : e ∈ compounds) :
    pageFile p.pageDir e.1 ∈ p.files compounds :=
  List.mem_map.2 ⟨(pageFile p.pageDir e.1, Page.compound e.2),
    List.mem_append_left _ (List.mem_map_of_mem he), rfl⟩

theorem indexFile_mem_files : p.indexFile ∈ p.files compounds :=
  List.mem_map.2 ⟨(p.indexFile, _), List.mem_append_right _ List.mem_cons_self, rfl⟩

theorem exists_name_of_mem_texts {w : Path × String} (hw : w ∈ p.texts compounds) :
    ∃ name, w.1 = p.pageDir / Path.ofString name := by
  rcases List.mem_append.1 hw with hw | hw
  · obtain ⟨e, -, rfl⟩ := List.mem_map.1 hw
    exact ⟨e.1 ++ ".md", rfl⟩
  · obtain rfl := List.mem_singleton.1 hw
    exact ⟨p.index, rfl⟩

theorem endsInName_of_mem_files (hdir : t.HasDir here p.pageDir) (hbelow : t.Below here)
    (hwrote : Tree.Wrote here (p.texts compounds) t t') {f : Path} (hf : f ∈ p.files compounds) :
    Tree.EndsInName f := by
  obtain ⟨w, hw, rfl⟩ := List.mem_map.1 hf
  obtain ⟨l, hl, hnotDir⟩ := hwrote.located w hw
  obtain ⟨name, hname⟩ := exists_name_of_mem_texts hw
  rw [hname] at hl ⊢
  exact hdir.endsInName hbelow hl hnotDir

def prepare (plan : Plan) (programs : Programs) (p : Project) : Run Unit := do
  Run.report (.processing p.input)
  match plan.generator with
  | none => Run.report (.skippingGenerator p.xmlDir)
  | some generator => discard (p.generate plan.here programs generator)

/-- The steps of a conversion that ends: the texts are written one after another, and then
the files may be copied. -/
theorem convert_steps (h : Ends (p.convert plan programs) s n s') :
    ∃ s₁ b t s₂, Ends (p.prepare plan programs) s () s₁ ∧
      (p.pages (s₁.tree.read? plan.here)).value = .ok b ∧
      n = (p.files b.compounds).length ∧
      s₁.tree.Grows t ∧ t.HasDir plan.here p.pageDir ∧
      Tree.Wrote plan.here (p.texts b.compounds) t s₂.tree ∧
      Ends (plan.copyTo.forM (copyPages plan.here (p.files b.compounds))) s₂ () s' := by
  unfold convert at h
  obtain ⟨_, s₀, hreport, h⟩ := ends_bind.1 h
  obtain ⟨s₁, hprepare, h⟩ : ∃ s₁, Ends (p.prepare plan programs) s () s₁ ∧
      Ends (do
        let tree := (← get).tree
        let b ← orFail id (← take (p.pages (tree.read? plan.here)))
        let compounds ← writePages plan.here p.pageDir b.compounds
        let index ← writeIndex plan.here p.pageDir p.index b
        let files := compounds ++ [index]
        print s!"Generated {files.length} Markdown pages into: {p.pageDir}"
        plan.copyTo.forM (copyPages plan.here files)
        return files.length) s₁ n s' := by
    unfold prepare
    cases hgenerator : plan.generator with
    | none | some _ =>
      rw [hgenerator] at h
      obtain ⟨u, s₁, hstep, h⟩ := ends_bind.1 h
      exact ⟨s₁, ends_bind.2 ⟨_, s₀, hreport, hstep⟩, h⟩
  obtain ⟨_, _, hget, h⟩ := ends_bind.1 h
  obtain ⟨rfl, rfl⟩ := ends_get.1 hget
  obtain ⟨r, s₃, htake, h⟩ := ends_bind.1 h
  obtain ⟨-, rfl, htree₃⟩ := take_spec htake
  obtain ⟨b, s₄, horFail, hrest⟩ := ends_bind.1 h
  obtain ⟨hb, rfl⟩ := orFail_spec horFail
  obtain ⟨_, s₅, hpages, hrest⟩ := ends_bind.1 hrest
  obtain ⟨_, s₆, hindex, hrest⟩ := ends_bind.1 hrest
  obtain ⟨_, s₇, hprint, hrest⟩ := ends_bind.1 hrest
  obtain ⟨_, s₈, hcopy, hrest⟩ := ends_bind.1 hrest
  obtain ⟨rfl, rfl⟩ := ends_pure.1 hrest
  obtain ⟨rfl, t, hgrows, hdir, hwrote⟩ := writePages_spec hpages
  rw [htree₃] at hgrows
  have hdir₅ : s₅.tree.HasDir plan.here p.pageDir := by
    obtain ⟨l, hl, hd⟩ := hdir
    exact ⟨l, (hwrote.locate _).trans hl, (hwrote.isDir l).trans hd⟩
  obtain ⟨rfl, hwroteIndex⟩ := writeIndex_spec hdir₅ hindex
  have hwrote' : Tree.Wrote plan.here (p.texts b.compounds) t s₆.tree := hwrote.append hwroteIndex
  have hfiles : (pageTexts p.pageDir b.compounds).map Prod.fst ++
      [p.pageDir / Path.ofString p.index] = p.files b.compounds := by
    rw [files, texts, List.map_append]
    rfl
  rw [hfiles] at hcopy ⊢
  rw [← tree_print hprint] at hwrote'
  exact ⟨s₁, b, t, s₇, hprepare, hb, rfl, hgrows, hdir, hwrote', hcopy⟩

theorem convert_spec (hgenerator : plan.generator = none) (hbelow : s.tree.Below plan.here)
    (h : Ends (p.convert plan programs) s n s') :
    ∃ b, (p.pages (s.tree.read? plan.here)).value = .ok b ∧
      n = (p.files b.compounds).length ∧
      ∃ t t', p.Written plan.here b.compounds t t' s'.tree := by
  obtain ⟨s₁, b, t, s₂, hprepare, hb, hn, hgrows, hdir, hwrote, hcopy⟩ := convert_steps h
  have htree : s₁.tree = s.tree := by
    obtain ⟨_, s₀, hreport, hskip⟩ := ends_bind.1 hprepare
    rw [hgenerator] at hskip
    exact (tree_report hskip).trans (tree_report hreport)
  rw [htree] at hb hgrows
  have hbelow' : t.Below plan.here := hbelow.mono fun _ => hgrows.isDir
  refine ⟨b, hb, hn, t, s₂.tree, ?_⟩
  cases hcopyTo : plan.copyTo with
  | none =>
    rw [hcopyTo] at hcopy
    obtain ⟨-, rfl⟩ := ends_pure.1 hcopy
    exact ⟨hdir, hbelow', hwrote, fun _ h => h, fun _ _ _ h => h⟩
  | some target =>
    rw [hcopyTo] at hcopy
    obtain ⟨t', hgrows', -, hcopies, hread⟩ := copyPages_spec (fun f hf =>
      endsInName_of_mem_files hdir hbelow' hwrote hf) hcopy
    refine ⟨hdir, hbelow', hwrote, fun l hl => (hcopies.isDir l).trans (hgrows'.isDir hl), ?_⟩
    intro f hf text htext
    rw [hread f hf]
    exact hgrows'.read? htext

/-! ## Pages and the index page -/

theorem Written.locate (h : p.Written here compounds t t' t'') {f : Path}
    (hf : f ∈ p.files compounds) : t''.locate? here f = t.locate? here f := by
  obtain ⟨w, hw, rfl⟩ := List.mem_map.1 hf
  obtain ⟨l, hl, -⟩ := h.wrote.located w hw
  rw [hl]
  exact Tree.follow?_mono h.isDir ((h.wrote.locate w.1).trans hl)

/-- The files of pages are different if their ids are and the names hold no slash. -/
theorem page_eq_of_locate? {b : Builder} (hb : b.Titled)
    (hslash : ∀ e ∈ b.compounds, '/' ∉ e.2.typeName.toList) {dir : Path} {l : Location}
    {e e' : String × Compound} (he : e ∈ b.compounds) (he' : e' ∈ b.compounds)
    (hl : t.locate? here (pageFile dir e.1) = some l)
    (hl' : t.locate? here (pageFile dir e'.1) = some l) : e.1 = e'.1 := by
  obtain ⟨slashes, dirs, last, hfile⟩ := Path.ofString_append dir b.options.pagePrefix.toList
  have hpath {e : String × Compound} (he : e ∈ b.compounds) : pageFile dir e.1 =
      ⟨slashes, dirs ++ [String.ofList (last ++ (lower e.2.typeName.toList ++ ".md".toList))]⟩ := by
    have hname : e.1 ++ ".md" = String.ofList
        (b.options.pagePrefix.toList ++ (lower e.2.typeName.toList ++ ".md".toList)) := by
      rw [hb.key_eq e he]
      apply String.toList_injective
      simp
    rw [pageFile, hname]
    refine hfile _ ?_ ?_
    · rw [List.mem_append, not_or]
      exact ⟨slash_not_mem_lower (hslash e he), by decide⟩
    · have hmd : ".md".toList.length = 3 := by decide
      rw [List.length_append]
      omega
  have hdots (cs : List Char) : String.ofList (last ++ (cs ++ ".md".toList)) ≠ ".." := by
    intro h
    have hlist := congrArg (fun s : String => s.toList.getLast?) h
    simp at hlist
  rw [hpath he] at hl
  rw [hpath he'] at hl'
  have heq := Tree.name_eq_of_locate? (hdots _) (hdots _) hl hl'
  rw [String.ofList_inj, List.append_cancel_left_eq, List.append_cancel_right_eq] at heq
  rw [hb.key_eq e he, hb.key_eq e' he', onChars, onChars, heq]

section
variable {b : Builder} (h : p.Written here b.compounds t t' t'') (hb : b.Titled)
  (hslash : ∀ e ∈ b.compounds, '/' ∉ e.2.typeName.toList)
include h hb hslash

theorem Written.page_eq {e e' : String × Compound} (he : e ∈ b.compounds)
    (he' : e' ∈ b.compounds) (hloc : t.locate? here (pageFile p.pageDir e.1) =
      t.locate? here (pageFile p.pageDir e'.1)) : e = e' := by
  have hw : (pageFile p.pageDir e.1, Page.compound e.2) ∈ p.texts b.compounds :=
    List.mem_append_left _ (List.mem_map_of_mem he)
  obtain ⟨l, hl, -⟩ := h.wrote.located _ hw
  have hkey := page_eq_of_locate? hb hslash he he' hl (hloc ▸ hl)
  exact List.inj_on_of_nodup_map hb.nodup he he' hkey

/-- The files are distinct if the index page has one of its own. -/
theorem Written.nodup_files_iff : ((p.files b.compounds).map (t''.locate? here)).Nodup ↔
    ∀ e ∈ b.compounds,
      t''.locate? here (pageFile p.pageDir e.1) ≠ t''.locate? here p.indexFile := by
  have hlocate : (p.files b.compounds).map (t''.locate? here) =
      (p.files b.compounds).map (t.locate? here) :=
    List.map_congr_left fun f hf => h.locate hf
  have hsplit : (p.files b.compounds).map (t.locate? here) =
      (b.compounds.map fun e => t.locate? here (pageFile p.pageDir e.1)) ++
        [t.locate? here p.indexFile] := by
    simp [files, texts, pageTexts]
  have hpages : (b.compounds.map fun e => t.locate? here (pageFile p.pageDir e.1)).Nodup :=
    hb.nodup.of_map.map_on fun e he e' he' => h.page_eq hb hslash he he'
  rw [hlocate, hsplit, List.nodup_append]
  constructor
  · rintro ⟨-, -, hne⟩ e he
    rw [h.locate (pageFile_mem_files he), h.locate indexFile_mem_files]
    exact hne _ (List.mem_map_of_mem he) _ List.mem_cons_self
  · intro hne
    refine ⟨hpages, List.nodup_singleton _, fun l hl m hm => ?_⟩
    obtain ⟨e, he, rfl⟩ := List.mem_map.1 hl
    obtain rfl := List.mem_singleton.1 hm
    have hapart := hne e he
    rwa [h.locate (pageFile_mem_files he), h.locate indexFile_mem_files] at hapart

theorem Written.read_page (happart : ∀ e ∈ b.compounds,
      t''.locate? here (pageFile p.pageDir e.1) ≠ t''.locate? here p.indexFile)
    {e : String × Compound} (he : e ∈ b.compounds) :
    t''.read? here (pageFile p.pageDir e.1) = some (Page.compound e.2) := by
  refine h.read _ (pageFile_mem_files he) _ ?_
  have hw : (pageFile p.pageDir e.1, Page.compound e.2) ∈ p.texts b.compounds :=
    List.mem_append_left _ (List.mem_map_of_mem he)
  refine h.wrote.read_of_mem hw fun v hv hloc => ?_
  rcases List.mem_append.1 hv with hv | hv
  · obtain ⟨e', he', rfl⟩ := List.mem_map.1 hv
    rw [h.page_eq hb hslash he' he hloc]
  · obtain rfl := List.mem_singleton.1 hv
    refine absurd ?_ (happart e he)
    rw [h.locate (pageFile_mem_files he), h.locate indexFile_mem_files]
    exact hloc.symm

omit h hslash in
theorem nodup_pageIds_iff : (p.pageIds b.compounds).Nodup ↔
    ∀ e ∈ b.compounds, e.2.page ≠ (Path.ofString p.index).stem := by
  have hids : (b.compounds.map fun e => e.2.page) = b.compounds.map Prod.fst :=
    List.map_congr_left hb.page_eq
  rw [pageIds, List.nodup_append]
  constructor
  · rintro ⟨-, -, hne⟩ e he
    exact hne _ (List.mem_map_of_mem he) _ List.mem_cons_self
  · intro hne
    refine ⟨hids ▸ hb.nodup, List.nodup_singleton _, fun id hid stem hstem => ?_⟩
    obtain ⟨e, he, rfl⟩ := List.mem_map.1 hid
    obtain rfl := List.mem_singleton.1 hstem
    exact hne e he

/-- Nothing is lost exactly if the index page has a file and an id of its own. -/
theorem Written.kept_iff : p.Kept here b.compounds t'' (p.files b.compounds).length ↔
    p.IndexApart here b.compounds t'' := by
  constructor
  · intro hkept
    refine ⟨(h.nodup_files_iff hb hslash).1 ?_, (nodup_pageIds_iff hb).1 hkept.nodup_ids⟩
    have hcount := hkept.count_eq
    rw [← List.length_map (f := t''.locate? here)] at hcount
    rw [← (List.dedup_sublist _).eq_of_length hcount.symm]
    exact List.nodup_dedup _
  · intro happart
    have hfiles := (h.nodup_files_iff hb hslash).2 happart.file
    exact
      { pages := fun e he => h.read_page hb hslash happart.file he
        index := h.read _ indexFile_mem_files _ h.wrote.read_append_singleton
        count_eq := by rw [hfiles.dedup, List.length_map]
        nodup_ids := (nodup_pageIds_iff hb).2 happart.id }

end

/-- A conversion that ends loses no page exactly if the index page has a file and an id of
its own, provided no class name holds a slash. -/
theorem kept_iff_indexApart (plan : Plan) (programs : Programs) (p : Project) (s s' : Session)
    (n : Nat) (hgenerator : plan.generator = none) (hbelow : s.tree.Below plan.here)
    (h : Ends (p.convert plan programs) s n s') :
    ∃ b, (p.pages (s.tree.read? plan.here)).value = .ok b ∧
      ((∀ e ∈ b.compounds, '/' ∉ e.2.typeName.toList) →
        (p.Kept plan.here b.compounds s'.tree n ↔
          p.IndexApart plan.here b.compounds s'.tree)) := by
  obtain ⟨b, hb, rfl, t, t', hwritten⟩ := convert_spec hgenerator hbelow h
  exact ⟨b, hb, fun hslash => hwritten.kept_iff (titled_pages hb) hslash⟩

def documentsOf (name : String) : Tree where
  entries :=
    [(["docs"], .dir), (["docs", "xml"], .dir),
      (["docs", "xml", "index.xml"], .file
        ("<doxygenindex><compound refid=\"c\" kind=\"class\"><name>" ++ name ++
          "</name></compound></doxygenindex>") false),
      (["docs", "xml", "c.xml"], .file
        ("<doxygen><compounddef id=\"c\" kind=\"class\"><compoundname>" ++ name ++
          "</compoundname></compounddef></doxygen>") false)]

def plain : Project where
  input := ⟨1, []⟩
  output := ⟨1, ["docs"]⟩
  settings := []

def convertOnly : Plan where
  here := []
  config := ⟨1, ["doxymd.yml"]⟩
  generator := none

theorem kept_plain_shape : ∃ s' b,
    Ends (plain.convert convertOnly fun _ _ _ => none) { tree := documentsOf "Shape" } 2 s' ∧
      (plain.pages ((documentsOf "Shape").read? [])).value = .ok b ∧
      plain.Kept [] b.compounds s'.tree 2 := by
  obtain ⟨hok, hpages, hfile⟩ :
      (outcome (plain.convert convertOnly fun _ _ _ => none)
        { tree := documentsOf "Shape" }).1.toOption = some 2 ∧
      ((plain.pages ((documentsOf "Shape").read? [])).value.toOption.map fun b =>
        b.compounds.map fun e => (e.1, e.2.page, e.2.typeName)) =
          some [("shape", "shape", "Shape")] ∧
      (outcome (plain.convert convertOnly fun _ _ _ => none)
        { tree := documentsOf "Shape" }).2.tree.locate? [] (pageFile plain.pageDir "shape") ≠
      (outcome (plain.convert convertOnly fun _ _ _ => none)
        { tree := documentsOf "Shape" }).2.tree.locate? [] plain.indexFile := by
    decide +kernel
  have hends := ends_of_toOption hok
  obtain ⟨b, hb, hkept⟩ := kept_iff_indexApart convertOnly _ plain _ _ 2 rfl
    (fun l hl hne => absurd (List.prefix_nil.1 hl) hne) hends
  rw [show (plain.pages ((documentsOf "Shape").read? [])).value = .ok b from hb,
    Except.toOption, Option.map_some, Option.some.injEq] at hpages
  have hshape {e : String × Compound} (he : e ∈ b.compounds) :
      e.1 = "shape" ∧ e.2.page = "shape" ∧ e.2.typeName = "Shape" := by
    have hmem := List.mem_map_of_mem (f := fun e => (e.1, e.2.page, e.2.typeName)) he
    rw [hpages, List.mem_singleton] at hmem
    simpa using hmem
  refine ⟨_, b, hends, hb, (hkept fun e he => ?_).2 ⟨fun e he => ?_, fun e he => ?_⟩⟩
  · rw [(hshape he).2.2]
    decide
  · rw [(hshape he).1]
    exact hfile
  · rw [(hshape he).2.1]
    decide +kernel

/-- The index page takes the place of the page of a class `Index`. -/
theorem not_kept_plain_index : ∃ s' b,
    Ends (plain.convert convertOnly fun _ _ _ => none) { tree := documentsOf "Index" } 2 s' ∧
      (plain.pages ((documentsOf "Index").read? [])).value = .ok b ∧
      ¬ plain.Kept [] b.compounds s'.tree 2 := by
  obtain ⟨hok, hlost⟩ :
      (outcome (plain.convert convertOnly fun _ _ _ => none)
        { tree := documentsOf "Index" }).1.toOption = some 2 ∧
      ((plain.pages ((documentsOf "Index").read? [])).value.toOption.map fun b =>
        decide (∀ e ∈ b.compounds, (outcome (plain.convert convertOnly fun _ _ _ => none)
          { tree := documentsOf "Index" }).2.tree.read? [] (pageFile plain.pageDir e.1) =
            some (Page.compound e.2))) = some false := by
    decide +kernel
  have hends := ends_of_toOption hok
  generalize (outcome (plain.convert convertOnly fun _ _ _ => none)
    { tree := documentsOf "Index" }).2 = s' at hends hlost
  cases hb : (plain.pages ((documentsOf "Index").read? [])).value with
  | error e =>
    rw [hb] at hlost
    cases hlost
  | ok b =>
    rw [hb, Except.toOption, Option.map_some, Option.some.injEq, decide_eq_false_iff_not] at hlost
    exact ⟨s', b, hends, rfl, fun hkept => hlost hkept.pages⟩

end Project

end DoxPages
