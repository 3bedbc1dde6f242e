import DoxPages.Proofs.Conversion.Kept
import DoxPages.Proofs.Page.Tables

/-!
# What the index lists

The index gathers the compounds of each namespace and puts namespaces and compounds in order
without regard to case. `byNamespace_eq` gives the groups in closed form, one filter of the
compounds for each namespace that shows any, and `lines_index` finds them on the page, with a row
for each compound. No two pages of a build have one name when case is
left aside, so the order in which compounds were built could only show where namespaces tie.
-/

namespace DoxPages.Page

open Text Docs Docs.Builder

/-! ## Order without regard to case -/

theorem foldedLe_trans (a b c : String) (hab : foldedLe a b = true) (hbc : foldedLe b c = true) :
    foldedLe a c = true := by
  simp only [foldedLe, decide_eq_true_eq] at *
  exact String.le_trans hab hbc

theorem foldedLe_total (a b : String) : (foldedLe a b || foldedLe b a) = true := by
  simp only [foldedLe, Bool.or_eq_true, decide_eq_true_eq]
  exact String.le_total _ _

theorem folded_eq {a b : String} (hab : foldedLe a b = true) (hba : foldedLe b a = true) :
    onChars lower a = onChars lower b := by
  simp only [foldedLe, decide_eq_true_eq] at hab hba
  exact String.le_antisymm hab hba

abbrev nameLe (c d : Compound) : Bool := foldedLe c.typeName d.typeName

theorem nameLe_trans (a b c : Compound) : nameLe a b = true → nameLe b c = true →
    nameLe a c = true := foldedLe_trans _ _ _

theorem nameLe_total (a b : Compound) : (nameLe a b || nameLe b a) = true := foldedLe_total _ _

/-! ## Gathering -/

def shownUnder (cs : List Compound) (scope : String) : List Compound :=
  cs.filter fun c => c.displayScope = scope

/-- The namespaces that compounds are shown under, each where it came first. -/
def scopes (cs : List Compound) : List String := (cs.foldl addToGroup []).map Prod.fst

theorem shownUnder_concat (cs : List Compound) (c : Compound) (scope : String) :
    shownUnder (cs ++ [c]) scope =
      shownUnder cs scope ++ if c.displayScope = scope then [c] else [] := by
  rw [shownUnder, List.filter_append, shownUnder, List.filter_cons, List.filter_nil]
  simp only [decide_eq_true_eq]

theorem mem_scopes {cs : List Compound} {scope : String} :
    scope ∈ scopes cs ↔ ∃ c ∈ cs, c.displayScope = scope := by
  rw [scopes]
  induction cs using List.reverseRecOn with
  | nil => simp
  | append_singleton cs c ih =>
    rw [List.foldl_concat, addToGroup, Assoc.mem_keys_put, ih]
    simp only [List.mem_append, List.mem_singleton, or_and_right, exists_or, exists_eq_left]
    rw [or_comm, eq_comm]

theorem nodup_scopes (cs : List Compound) : (scopes cs).Nodup := by
  rw [scopes]
  induction cs using List.reverseRecOn with
  | nil => exact List.nodup_nil
  | append_singleton cs c ih =>
    rw [List.foldl_concat, addToGroup]
    by_cases h : c.displayScope ∈ (cs.foldl addToGroup []).map Prod.fst
    · rwa [Assoc.keys_put_of_mem h]
    · rw [Assoc.keys_put_of_not_mem h, List.nodup_append]
      refine ⟨ih, List.nodup_singleton _, fun s hs t ht => ?_⟩
      rintro rfl
      exact h (List.mem_singleton.1 ht ▸ hs)

theorem lookup_gathered (cs : List Compound) (scope : String) :
    ((cs.foldl addToGroup []).lookup scope).getD [] = shownUnder cs scope := by
  induction cs using List.reverseRecOn with
  | nil => rfl
  | append_singleton cs c ih =>
    rw [List.foldl_concat, addToGroup, shownUnder_concat]
    by_cases h : c.displayScope = scope
    · subst h
      rw [Assoc.lookup_put_self, Option.getD_some, ih, if_pos rfl]
    · rw [Assoc.lookup_put_of_ne (Ne.symm h), ih, if_neg h, List.append_nil]

theorem gathered_eq (cs : List Compound) :
    cs.foldl addToGroup [] = (scopes cs).map fun scope => (scope, shownUnder cs scope) := by
  rw [scopes, List.map_map]
  conv => lhs; rw [← List.map_id (cs.foldl addToGroup [])]
  refine List.map_congr_left fun e he => ?_
  have hlookup := lookup_gathered cs e.1
  rw [Assoc.lookup_of_mem (k := e.1) (v := e.2) (nodup_scopes cs) he, Option.getD_some] at hlookup
  exact Prod.ext rfl hlookup

/-- The groups of the index: its namespaces in order, each with its compounds in order. -/
theorem byNamespace_eq (cs : List Compound) :
    byNamespace cs = ((scopes cs).mergeSort foldedLe).map fun scope =>
      (scope, (shownUnder cs scope).mergeSort nameLe) := by
  have hsort (f : String → String × List Compound) (hf : ∀ scope, (f scope).1 = scope) :
      ((scopes cs).map f).mergeSort (fun a b => foldedLe a.1 b.1) =
        ((scopes cs).mergeSort foldedLe).map f := by
    refine (List.map_mergeSort fun s _ t _ => ?_).symm
    rw [hf, hf]
  rw [byNamespace, gathered_eq, hsort _ fun _ => rfl, List.map_map]
  rfl

/-! ## Each compound once -/

/-- Groups that list each of some compounds once, under its own namespace, and are in order
without regard to case. -/
structure Lists (cs : List Compound) (groups : List (String × List Compound)) : Prop where
  once : (groups.flatMap Prod.snd).Perm cs
  scopes_nodup : (groups.map Prod.fst).Nodup
  placed : ∀ c ∈ cs, ∃ g ∈ groups, g.1 = c.displayScope
  own : ∀ g ∈ groups, g.2.Perm (shownUnder cs g.1)
  ne_nil : ∀ g ∈ groups, g.2 ≠ []
  ascending : groups.Pairwise fun g h => onChars lower g.1 ≤ onChars lower h.1
  names_ascending : ∀ g ∈ groups,
    g.2.Pairwise fun c d => onChars lower c.typeName ≤ onChars lower d.typeName

theorem shownUnder_ne_nil {cs : List Compound} {scope : String} (h : scope ∈ scopes cs) :
    shownUnder cs scope ≠ [] := by
  obtain ⟨c, hc, rfl⟩ := mem_scopes.1 h
  exact List.ne_nil_of_mem (List.mem_filter.2 ⟨hc, decide_eq_true rfl⟩)

theorem lists_byNamespace (cs : List Compound) : Lists cs (byNamespace cs) := by
  have hscopes := List.mergeSort_perm (scopes cs) foldedLe
  have hnodup := hscopes.nodup_iff.2 (nodup_scopes cs)
  rw [byNamespace_eq]
  refine
    { once := ?_
      scopes_nodup := ?_
      placed := fun c hc => ?_
      own := fun g hg => ?_
      ne_nil := fun g hg => ?_
      ascending := ?_
      names_ascending := fun g hg => ?_ }
  · rw [List.flatMap_map]
    refine (List.Perm.flatMap_left _ fun scope _ => List.mergeSort_perm ..).trans ?_
    refine Grouping.flatMap_filter_perm hnodup fun c hc => ?_
    exact hscopes.mem_iff.2 (mem_scopes.2 ⟨c, hc, rfl⟩)
  · rw [List.map_map]
    exact (List.map_id _).symm ▸ hnodup
  · exact ⟨_, List.mem_map_of_mem (hscopes.mem_iff.2 (mem_scopes.2 ⟨c, hc, rfl⟩)), rfl⟩
  · obtain ⟨scope, -, rfl⟩ := List.mem_map.1 hg
    exact List.mergeSort_perm ..
  · obtain ⟨scope, hscope, rfl⟩ := List.mem_map.1 hg
    intro hnil
    have hperm := List.mergeSort_perm (shownUnder cs scope) nameLe
    rw [show (shownUnder cs scope).mergeSort nameLe = [] from hnil] at hperm
    exact shownUnder_ne_nil (hscopes.mem_iff.1 hscope) hperm.nil_eq.symm
  · refine List.pairwise_map.2 ((List.pairwise_mergeSort foldedLe_trans foldedLe_total _).imp ?_)
    exact fun hle => of_decide_eq_true hle
  · obtain ⟨scope, -, rfl⟩ := List.mem_map.1 hg
    refine (List.pairwise_mergeSort nameLe_trans nameLe_total _).imp ?_
    exact fun hle => of_decide_eq_true hle

/-! ## The page -/

def rowLine (c : Compound) : List Char := (tableLine ((indexRow c).map (onChars tableCell))).toList

/-- A group on the index page: its heading, and a table with a row for each compound. -/
def groupText (g : String × List Compound) : List (List Char) :=
  splitChar '\n' ("## " ++ if g.1 = "" then "Global namespace" else g.1).toList ++
    [[], "| Name | Kind | Description |".toList, "| --- | --- | --- |".toList] ++
    g.2.map rowLine ++ [[]]

theorem flatMap_groupLines {g : String × List Compound} (h : g.2 ≠ []) :
    (groupLines g.1 g.2).flatMap (fun s => splitChar '\n' s.toList) = groupText g := by
  have htable : splitChar '\n'
      (markdownTable ["Name", "Kind", "Description"] (g.2.map indexRow)).toList = _ :=
    lines_markdownTable (by decide) (by simpa using h)
  rw [groupLines, List.flatMap_cons, List.flatMap_cons, List.flatMap_cons, htable, List.map_map]
  simp only [groupText, List.append_assoc]
  rfl

theorem getLast?_joinWith_concat (front : List String) {s : String} (hne : s ≠ "") :
    (joinWith "\n" (front ++ [s])).toList.getLast? = s.toList.getLast? := by
  by_cases hfront : front = []
  · rw [hfront, List.nil_append, joinWith_singleton]
  · have hchars : s.toList ≠ [] := by simpa using hne
    rw [joinWith_concat hfront, ← List.append_assoc, List.getLast?_append,
      List.getLast?_eq_some_getLast hchars, Option.some_or]

/-- A page whose last line is empty, and the one before is not blank at its end, is its lines
as they stand. -/
theorem toList_ofLines (front : List String) {s : String} {c : Char}
    (hlast : s.toList.getLast? = some c) (hc : isBlank c = false) :
    (ofLines (front ++ [s, ""])).toList = (joinWith "\n" (front ++ [s, ""])).toList := by
  have hne : s ≠ "" := by
    rintro rfl
    cases hlast
  have hsplit : front ++ [s, ""] = front ++ [s] ++ [""] := by simp
  have hjoin : (joinWith "\n" (front ++ [s, ""])).toList =
      (joinWith "\n" (front ++ [s])).toList ++ ['\n'] := by
    rw [hsplit, joinWith_concat (by simp)]
    rfl
  have hstrip : stripRight ((joinWith "\n" (front ++ [s])).toList ++ ['\n']) =
      (joinWith "\n" (front ++ [s])).toList := by
    rw [stripRight, trimRight, List.reverse_append, List.reverse_singleton, List.singleton_append,
      List.dropWhile_cons_of_pos (by decide)]
    refine stripRight_eq_self fun d hd => ?_
    rw [getLast?_joinWith_concat front hne, hlast] at hd
    exact Option.some.inj hd ▸ hc
  rw [ofLines, String.toList_append, toList_onChars, hjoin, hstrip]
  rfl

def indexLines (id title : String) (cs : List Compound) : List String :=
  frontMatter id title ++ (byNamespace cs).flatMap fun g => groupLines g.1 g.2

/-- The last line but one is a row of the last table, or that of the front matter. -/
theorem exists_indexLines_eq (id title : String) (cs : List Compound) :
    ∃ front s c, indexLines id title cs = front ++ [s, ""] ∧ s.toList.getLast? = some c ∧
      isBlank c = false := by
  rw [indexLines]
  rcases List.eq_nil_or_concat (byNamespace cs) with hnil | ⟨gs, g, hconcat⟩
  · rw [hnil]
    exact ⟨["---", "id: " ++ id, "title: " ++ title], "---", '-', rfl, by decide, by decide⟩
  · have hg : g ∈ byNamespace cs := by simp [hconcat]
    have hrows : g.2.map indexRow ≠ [] := by
      simpa using (lists_byNamespace cs).ne_nil g hg
    refine ⟨frontMatter id title ++ (gs.flatMap fun g => groupLines g.1 g.2) ++
      ["## " ++ if g.1 = "" then "Global namespace" else g.1, ""],
      markdownTable ["Name", "Kind", "Description"] (g.2.map indexRow), '|', ?_,
      getLast?_markdownTable hrows, by decide⟩
    rw [hconcat, List.concat_eq_append, List.flatMap_append, List.flatMap_singleton, groupLines]
    simp only [List.append_assoc]
    rfl

/-- The index page line by line: the front matter, and the groups one behind the other. -/
theorem lines_index (id title : String) (cs : List Compound) :
    splitChar '\n' (index id title cs).toList =
      (frontMatter id title).flatMap (fun s => splitChar '\n' s.toList) ++
        (byNamespace cs).flatMap groupText := by
  have hgroups : ((byNamespace cs).flatMap fun g => groupLines g.1 g.2).flatMap
      (fun s => splitChar '\n' s.toList) = (byNamespace cs).flatMap groupText := by
    rw [List.flatMap_assoc]
    exact List.flatMap_congr fun g hg => flatMap_groupLines ((lists_byNamespace cs).ne_nil g hg)
  obtain ⟨front, s, c, hlines, hlast, hc⟩ := exists_indexLines_eq id title cs
  have hpage : (index id title cs).toList = (joinWith "\n" (indexLines id title cs)).toList := by
    rw [hlines, ← toList_ofLines front hlast hc, ← hlines]
    rfl
  rw [hpage, splitChar_joinWith rfl (by simp [indexLines, frontMatter]), indexLines,
    List.flatMap_append, hgroups]

/-- All rows of the index are those of its compounds, one for each. -/
theorem rows_perm (cs : List Compound) :
    ((byNamespace cs).flatMap fun g => g.2.map rowLine).Perm (cs.map rowLine) := by
  rw [← List.map_flatMap]
  exact (lists_byNamespace cs).once.map rowLine

/-! ## The order of compounds -/

/-- Namespaces that differ still do so when case is left aside. -/
def CaseTells (cs : List Compound) : Prop :=
  ∀ c ∈ cs, ∀ d ∈ cs, onChars lower c.displayScope = onChars lower d.displayScope →
    c.displayScope = d.displayScope

instance (cs : List Compound) : Decidable (CaseTells cs) :=
  inferInstanceAs (Decidable (∀ c ∈ cs, ∀ d ∈ cs, _ → _))

/-- The groups do not depend on the order of compounds if neither names nor namespaces tie. -/
theorem byNamespace_perm {cs ds : List Compound} (h : cs.Perm ds)
    (hnames : (cs.map fun c => onChars lower c.typeName).Nodup) (hcase : CaseTells cs) :
    byNamespace cs = byNamespace ds := by
  have hscopes : (scopes cs).mergeSort foldedLe = (scopes ds).mergeSort foldedLe := by
    have hperm : (scopes cs).Perm (scopes ds) := by
      refine (List.perm_ext_iff_of_nodup (nodup_scopes cs) (nodup_scopes ds)).2 fun scope => ?_
      simp only [mem_scopes, h.mem_iff]
    refine mergeSort_eq_of_perm foldedLe_trans foldedLe_total hperm fun s hs t ht hst hts => ?_
    obtain ⟨c, hc, rfl⟩ := mem_scopes.1 hs
    obtain ⟨d, hd, rfl⟩ := mem_scopes.1 ht
    exact hcase c hc d hd (folded_eq hst hts)
  have hgroup (scope : String) :
      (shownUnder cs scope).mergeSort nameLe = (shownUnder ds scope).mergeSort nameLe := by
    refine mergeSort_eq_of_perm nameLe_trans nameLe_total (h.filter _) fun c hc d hd hcd hdc => ?_
    exact List.inj_on_of_nodup_map hnames (List.mem_filter.1 hc).1 (List.mem_filter.1 hd).1
      (folded_eq hcd hdc)
  rw [byNamespace_eq, byNamespace_eq, hscopes]
  simp only [hgroup]

end DoxPages.Page

namespace DoxPages.Docs.Builder

open Text

def shown (b : Builder) : List Compound := b.compounds.map Prod.snd

/-- Pages of their own have names that differ also without regard to case. -/
theorem Titled.nodup_names {b : Builder} (h : b.Titled) :
    (b.shown.map fun c => onChars lower c.typeName).Nodup := by
  have hkeys : b.compounds.map Prod.fst =
      (b.shown.map fun c => onChars lower c.typeName).map (b.options.pagePrefix ++ ·) := by
    rw [shown, List.map_map, List.map_map]
    exact List.map_congr_left h.key_eq
  have hnodup := h.nodup
  rw [hkeys] at hnodup
  exact hnodup.of_map

theorem shown_perm_of_lookup {b b' : Builder} (h : b.Titled) (h' : b'.Titled)
    (hlookup : ∀ k, b.compounds.lookup k = b'.compounds.lookup k) : b.shown.Perm b'.shown := by
  refine List.Perm.map _ ((List.perm_ext_iff_of_nodup h.nodup.of_map h'.nodup.of_map).2 fun e => ?_)
  have hmem {d : Builder} (hd : d.Titled) : e ∈ d.compounds ↔ d.compounds.lookup e.1 = some e.2 :=
    ⟨Assoc.lookup_of_mem hd.nodup, Assoc.mem_of_lookup⟩
  rw [hmem h, hmem h', hlookup]

/-- The index lists each compound once under its namespace. After builds of a model and of a
reordering of it the indexes are the same, unless namespaces differ in case only. -/
theorem index_lists_once (o : Options) :
    (∀ cs : List Compound, Page.Lists cs (Page.byNamespace cs)) ∧
    ∀ (model model' : Source.Model) (b b' : Builder), Source.Keyed model →
      (Source.memberIds model).Nodup → model.Perm model' →
      ((fresh o).build model).value = (b, none) → ((fresh o).build model').value = (b', none) →
      Page.CaseTells b.shown →
      ∀ id title, Page.index id title b.shown = Page.index id title b'.shown := by
  refine ⟨Page.lists_byNamespace,
    fun model model' b b' hkeyed hmembers hperm hb hb' hcase id title => ?_⟩
  have hlookup : ∀ k, b.compounds.lookup k = b'.compounds.lookup k := by
    rcases build_perm (o := o) hkeyed hmembers hperm with ⟨hfails, -⟩ | ⟨d, d', hd, hd', hsame⟩
    · exact absurd (congrArg Prod.snd hb) hfails
    · obtain rfl := congrArg Prod.fst (hd.symm.trans hb)
      obtain rfl := congrArg Prod.fst (hd'.symm.trans hb')
      exact hsame
  have hpages := shown_perm_of_lookup (titled_build hb) (titled_build hb') hlookup
  rw [Page.index, Page.index, Page.byNamespace_perm hpages (titled_build hb).nodup_names hcase]

def inkOptions : Options := { aliases := [("ink", .string "Wood")] }

/-- Classes of three namespaces, two of which are shown as one. -/
def desks : Source.Model :=
  [("pen", { id := "pen", kind := "class", name := "ink::Pen" }),
    ("shelf", { shelf with name := "Wood::shelf" }), ("book", book),
    ("desk", { id := "desk", kind := "struct", name := "Wood::Desk" })]

theorem index_lists_once_desks :
    Source.Keyed desks ∧ (Source.memberIds desks).Nodup ∧ desks.Perm desks.reverse ∧
    ∃ b b', ((fresh inkOptions).build desks).value = (b, none) ∧
      ((fresh inkOptions).build desks.reverse).value = (b', none) ∧
      Page.CaseTells b.shown ∧ b.shown.map (·.typeName) = ["Pen", "shelf", "Book", "Desk"] ∧
      Page.index "index" "Desks" b.shown = Page.index "index" "Desks" b'.shown := by
  have hkeyed : Source.Keyed desks :=
    { id_eq := by simp [desks, shelf, book], nodup := by decide }
  have hmembers : (Source.memberIds desks).Nodup := by decide +kernel
  have hperm : desks.Perm desks.reverse := (List.reverse_perm desks).symm
  have hnone : ((fresh inkOptions).build desks).value.2 = none := by decide +kernel
  have hnone' : ((fresh inkOptions).build desks.reverse).value.2 = none := by decide +kernel
  have hbuilt (m : Source.Model) (h : ((fresh inkOptions).build m).value.2 = none) :
      ((fresh inkOptions).build m).value = (((fresh inkOptions).build m).value.1, none) :=
    Prod.ext rfl h
  have hb := hbuilt desks hnone
  have hb' := hbuilt desks.reverse hnone'
  have hcase : Page.CaseTells ((fresh inkOptions).build desks).value.1.shown := by decide +kernel
  have hnames : ((fresh inkOptions).build desks).value.1.shown.map (·.typeName) =
      ["Pen", "shelf", "Book", "Desk"] := by decide +kernel
  exact ⟨hkeyed, hmembers, hperm, _, _, hb, hb', hcase, hnames,
    (index_lists_once inkOptions).2 _ _ _ _ hkeyed hmembers hperm hb hb' hcase _ _⟩

end DoxPages.Docs.Builder
