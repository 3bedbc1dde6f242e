import DoxPages.Proofs.Links.Runs
import DoxPages.Proofs.Links.Sealed

/-!
# Linking a linked text

A second pass changes nothing if it finds again, as a link or code span, all that the first
pass wrote: then its gaps are runs of the first pass, or fronts of them. It does so if the
parts of the text are tidy. Line feeds and backticks in template arguments, brackets in
labels, backticks left over and link labels left open are what it can go wrong on.
-/

namespace DoxPages

open Text

/-! ## Tidy parts -/

namespace Part

/-- No backtick is left over, no label of a link is left open, and the edits are read as they
are written. -/
def areTidy : List Part → Bool
  | [] => true
  | plain c :: ps => c ≠ '`' && !(c = '[' && closesLabel (ps.flatMap shown)) && areTidy ps
  | p :: ps => p.marks.all Mark.isTidy && areTidy ps

theorem areTidy_append {ps qs : List Part} (h : areTidy (ps ++ qs) = true) : areTidy qs = true := by
  induction ps with
  | nil => exact h
  | cons p ps ih =>
    refine ih ?_
    cases p <;> exact (Bool.and_eq_true_iff.1 h).2

theorem isTidy_of_areTidy {ps : List Part} (h : areTidy ps = true) {p : Part} (hp : p ∈ ps) :
    ∀ m ∈ p.marks, m.isTidy = true := by
  obtain ⟨front, rest, rfl⟩ := List.append_of_mem hp
  have hrest := areTidy_append h
  cases p with
  | plain c => exact nofun
  | guard cs => exact nofun
  | edit label url more => exact List.all_eq_true.1 (Bool.and_eq_true_iff.1 hrest).1

theorem head_shown_of_head_written {ps : List Part} (hsealed : ∀ p ∈ ps, p.Sealed)
    (h : ['('].isPrefixOf (ps.flatMap written) = true) :
    ['('].isPrefixOf (ps.flatMap shown) = true := by
  cases ps with
  | nil => exact h
  | cons p ps =>
    cases p with
    | plain c => simpa [shown, written] using h
    | guard cs =>
      have hguard : IsGuard cs := hsealed (guard cs) List.mem_cons_self
      cases hguard <;> simp [written] at h
    | edit label url more => simp [written, Mark.written_link] at h

/-- A label that is left open in the text, and ends in the linked text, ends with the label of a
link. -/
theorem exists_edit_of_closesLabel {ps : List Part} (hsealed : ∀ p ∈ ps, p.Sealed)
    (hshown : closesLabel (ps.flatMap shown) = false)
    (hwritten : closesLabel (ps.flatMap written) = true) :
    ∃ front label url more rest, ps = front ++ edit label url more :: rest ∧
      ∀ c ∈ front.flatMap written, isLabelChar c = true := by
  induction ps with
  | nil => exact absurd hwritten (by decide)
  | cons p ps ih =>
    have hrest := fun q hq => hsealed q (List.mem_cons_of_mem p hq)
    -- the label goes on behind a part that is as in the text
    have hstep (cs : List Char) (hps : p.shown = cs) (hpw : p.written = cs)
        (hcs : ∀ c ∈ cs, isLabelChar c = true) :
        ∃ front label url more rest, p :: ps = front ++ edit label url more :: rest ∧
          ∀ c ∈ front.flatMap written, isLabelChar c = true := by
      rw [List.flatMap_cons, hps, closesLabel_append hcs] at hshown
      rw [List.flatMap_cons, hpw, closesLabel_append hcs] at hwritten
      obtain ⟨front, label, url, more, rest, rfl, hfront⟩ := ih hrest hshown hwritten
      refine ⟨p :: front, label, url, more, rest, rfl, fun c hc => ?_⟩
      rw [List.flatMap_cons, hpw, List.mem_append] at hc
      exact hc.elim (hcs c) (hfront c)
    cases p with
    | plain c =>
      cases hc : isLabelChar c with
      | true => exact hstep [c] rfl rfl (by simpa using hc)
      | false =>
        have hopen := closesLabel_of_stop hc
        rw [List.flatMap_cons, written, List.singleton_append, hopen] at hwritten
        rw [List.flatMap_cons, shown, List.singleton_append, hopen] at hshown
        obtain ⟨hbracket, hparen⟩ := Bool.and_eq_true_iff.1 hwritten
        have hparen' := head_shown_of_head_written hrest hparen
        rw [List.isPrefixOf_cons_cons, hbracket, hparen'] at hshown
        cases hshown
    | guard cs =>
      have hguard : IsGuard cs := hsealed (guard cs) List.mem_cons_self
      by_cases hcs : ∀ c ∈ cs, isLabelChar c = true
      · exact hstep cs rfl rfl hcs
      · rw [List.flatMap_cons, shown, hguard.closesLabel_eq hcs _ (ps.flatMap written)] at hshown
        rw [List.flatMap_cons, written, hshown] at hwritten
        cases hwritten
    | edit label url more => exact ⟨[], label, url, more, ps, rfl, by simp⟩

/-- A guard that starts at a plain character starts at a bracket, and a label that is left open
there ends with a link. -/
theorem exists_edit_of_guard {c : Char} {ps : List Part} (hsealed : ∀ p ∈ ps, p.Sealed)
    (htidy : areTidy (plain c :: ps) = true) {guard behind : List Char} (hguard : IsGuard guard)
    (htext : c :: ps.flatMap written = guard ++ behind) :
    c = '[' ∧ ∃ front label url more rest, ps = front ++ edit label url more :: rest ∧
      ∀ c ∈ front.flatMap written, isLabelChar c = true := by
  simp only [areTidy, Bool.and_eq_true, decide_eq_true_eq] at htidy
  obtain ⟨⟨hquote, hopen⟩, -⟩ := htidy
  cases hguard with
  | code _ => exact absurd (List.cons.inj htext).1 hquote
  | @link label target hlabel _ =>
    obtain ⟨rfl, hwritten⟩ := List.cons.inj htext
    refine ⟨rfl, exists_edit_of_closesLabel hsealed (by simpa using hopen) ?_⟩
    rw [hwritten, List.append_eq, List.append_assoc,
      closesLabel_append fun c hc => isLabelChar_iff.2 (hlabel c hc)]
    rfl

end Part

/-! ## The second cut -/

/-- A cut of a linked text at links and code spans, with gaps that are runs of the parts or
fronts of them. -/
structure Recut (ps : List Part) (s : Split (List Char)) : Prop where
  leftmost : s.Leftmost guards []
  text_eq : s.text guards = ps.flatMap Part.written
  gaps : ∃ first more, s.gaps = first :: more ∧ Front (Part.runs ps).1 first ∧
    ∀ gap ∈ more, gap = [] ∨ ∃ run ∈ (Part.runs ps).2, Front run gap

namespace Recut

variable {ps rest : List Part} {s : Split (List Char)}

theorem leftmost_behind (h : s.Leftmost guards []) (before : List Char) :
    s.Leftmost guards before := by
  -- where a guard stands does not depend on what is before it
  generalize [] = before' at h
  induction h generalizing before with
  | last clear => exact .last clear
  | hit clear occurs tail ih => exact .hit clear occurs (ih _)

theorem nil : Recut [] (.last []) where
  leftmost := .last Pattern.clear_nil
  text_eq := rfl
  gaps := ⟨[], [], rfl, .inl rfl, nofun⟩

theorem plain (h : Recut ps s) {c : Char}
    (hnone : guards.NoneAt [] (c :: ps.flatMap Part.written)) :
    Recut (.plain c :: ps) (s.cons c) where
  leftmost := Split.leftmost_cons (h.text_eq.symm ▸ hnone) (leftmost_behind h.leftmost _)
  text_eq := by
    rw [Split.text_cons, h.text_eq]
    rfl
  gaps := by
    obtain ⟨first, more, hgaps, hfirst, hmore⟩ := h.gaps
    refine ⟨c :: first, more, ?_, ?_, hmore⟩
    · cases s with
      | last gap =>
        obtain ⟨rfl, rfl⟩ := List.cons.inj hgaps
        rfl
      | hit gap a rest =>
        obtain ⟨rfl, rfl⟩ := List.cons.inj hgaps
        rfl
    · rcases hfirst with rfl | ⟨rest, hrest⟩
      · exact .inl rfl
      · exact .inr ⟨rest, congrArg (List.cons c) hrest⟩

theorem hits (h : Recut rest s) {cs : List (List Char)} (hcs : ∀ guard ∈ cs, IsGuard guard) :
    (cs.foldr (.hit []) s).Leftmost guards [] ∧
      (cs.foldr (.hit []) s).text guards = cs.flatten ++ rest.flatMap Part.written ∧
      ∀ gap ∈ (cs.foldr (.hit []) s).gaps, gap = [] ∨ ∃ run ∈ Part.allRuns rest, Front run gap := by
  induction cs with
  | nil =>
    refine ⟨h.leftmost, h.text_eq, fun gap hgap => ?_⟩
    obtain ⟨first, more, hgaps, hfirst, hmore⟩ := h.gaps
    rw [List.foldr_nil, hgaps] at hgap
    rcases List.mem_cons.1 hgap with rfl | hgap
    · exact .inr ⟨_, List.mem_cons_self, hfirst⟩
    · exact (hmore gap hgap).imp_right fun ⟨run, hrun, hfront⟩ =>
        ⟨run, List.mem_cons_of_mem _ hrun, hfront⟩
  | cons guard cs ih =>
    obtain ⟨hguard, hcs⟩ := List.forall_mem_cons.1 hcs
    obtain ⟨hleftmost, htext, hgaps⟩ := ih hcs
    refine ⟨.hit Pattern.clear_nil hguard (leftmost_behind hleftmost _), ?_, ?_⟩
    · rw [List.foldr_cons, Split.text_hit, htext, List.flatten_cons, List.append_assoc]
      rfl
    · rw [List.foldr_cons, Split.gaps]
      exact List.forall_mem_cons.2 ⟨.inl rfl, hgaps⟩

theorem hit (h : Recut rest s) {guard : List Char} {more : List Mark} (hguard : IsGuard guard)
    (hmore : ∀ m ∈ more, m.Sealed)
    (htext : ps.flatMap Part.written =
      guard ++ (more.flatMap Mark.written ++ rest.flatMap Part.written))
    (hfirst : Front (Part.runs ps).1 []) (hruns : Part.allRuns rest ⊆ (Part.runs ps).2) :
    ∃ s, Recut ps s := by
  have hguards : ∀ m ∈ more.map Mark.written, IsGuard m := by
    intro cs hcs
    obtain ⟨m, hm, rfl⟩ := List.mem_map.1 hcs
    exact (hmore m hm).isGuard
  obtain ⟨hleftmost, htail, hgaps⟩ := h.hits hguards
  refine ⟨.hit [] guard ((more.map Mark.written).foldr (.hit []) s), ?_, ?_, ?_⟩
  · exact .hit Pattern.clear_nil hguard (leftmost_behind hleftmost _)
  · rw [Split.text_hit, htail, htext, List.flatMap_def]
    rfl
  · refine ⟨[], _, rfl, hfirst, fun gap hgap => ?_⟩
    exact (hgaps gap hgap).imp_right fun ⟨run, hrun, hfront⟩ => ⟨run, hruns hrun, hfront⟩

theorem exists_recut {ps : List Part} (hsealed : ∀ p ∈ ps, p.Sealed)
    (htidy : Part.areTidy ps = true) : ∃ s, Recut ps s := by
  -- on the length: behind a label that was left open the cut goes on after the link that ends it
  induction hlength : ps.length using Nat.strongRecOn generalizing ps with
  | ind length ih =>
    cases ps with
    | nil => exact ⟨_, .nil⟩
    | cons p ps =>
      have hrest := fun q hq => hsealed q (List.mem_cons_of_mem p hq)
      have htidy' : Part.areTidy ps = true :=
        Part.areTidy_append (show Part.areTidy ([p] ++ ps) = true from htidy)
      rw [List.length_cons] at hlength
      cases p with
      | guard cs =>
        obtain ⟨s, hs⟩ := ih ps.length (by omega) hrest htidy' rfl
        have hguard : IsGuard cs := hsealed (.guard cs) List.mem_cons_self
        have hmore : ∀ m ∈ ([] : List Mark), m.Sealed := by simp
        exact hs.hit hguard hmore rfl (.inl rfl) (List.Subset.refl _)
      | edit label url more =>
        obtain ⟨s, hs⟩ := ih ps.length (by omega) hrest htidy' rfl
        have hmarks : ∀ m ∈ Mark.link label url :: more, m.Sealed :=
          hsealed (.edit label url more) List.mem_cons_self
        obtain ⟨hlink, hmore⟩ := List.forall_mem_cons.1 hmarks
        exact hs.hit hlink.isGuard hmore (List.append_assoc ..) (.inl rfl) (List.Subset.refl _)
      | plain c =>
        cases hfind : findProtected ([] : List Char).getLast? (c :: ps.flatMap Part.written) with
        | none =>
          obtain ⟨s, hs⟩ := ih ps.length (by omega) hrest htidy' rfl
          exact ⟨_, hs.plain (guards_foundBy.noneAt_iff.2 hfind)⟩
        | some found =>
          obtain ⟨behind, htext, -, hguard⟩ := guards_foundBy.sound hfind
          obtain ⟨rfl, front, label, url, more, rest, rfl, hfront⟩ :=
            Part.exists_edit_of_guard hrest htidy hguard htext
          have hedit : ∀ m ∈ Mark.link label url :: more, m.Sealed :=
            hrest (.edit label url more) (List.mem_append_right _ List.mem_cons_self)
          obtain ⟨hlink, hmore⟩ := List.forall_mem_cons.1 hedit
          -- what follows the link is tidy and sealed as well
          have hbehind : front ++ .edit label url more :: rest =
              front ++ [.edit label url more] ++ rest := by simp
          rw [hbehind] at htidy' hrest hlength
          rw [List.length_append] at hlength
          obtain ⟨s, hs⟩ := ih rest.length (by simp at hlength; omega)
            (fun p hp => hrest p (List.mem_append_right _ hp)) (Part.areTidy_append htidy') rfl
          refine hs.hit (hlink.isGuard_behind hfront) hmore ?_ (.inr ⟨_, rfl⟩) ?_
          · simp [Part.written]
          · have hedit (c : Char) : Part.edit label url more ≠ .plain c := by simp
            have hruns := Part.allRuns_append hedit front rest
            rw [Part.runs, (List.cons.inj hruns).2]
            exact List.subset_append_right _ _

end Recut

namespace Linker

/-- A second pass over a linked text links nothing again if the parts of the text are tidy. -/
theorem apply_apply (l : Linker) (cs : List Char) (hstd : l.std.Clean) (hidl : l.idl.Clean)
    (htidy : Part.areTidy (l.parts cs) = true) : l.apply (l.apply cs) = l.apply cs := by
  have hsealed (p : Part) (hp : p ∈ l.parts cs) : p.Sealed :=
    sealed_parts hstd hidl hp (Part.isTidy_of_areTidy htidy hp)
  obtain ⟨s, hs⟩ := Recut.exists_recut hsealed htidy
  have htext : s.text guards = l.apply cs := hs.text_eq.trans (l.written_parts cs)
  have hgaps (gap : List Char) (hgap : gap ∈ s.gaps) : l.linkPlain gap = gap := by
    obtain ⟨first, more, hfirst, hrun, hmore⟩ := hs.gaps
    rw [hfirst] at hgap
    rcases List.mem_cons.1 hgap with rfl | hgap
    · exact linkPlain_of_mem_allRuns List.mem_cons_self hrun
    rcases hmore gap hgap with rfl | ⟨run, hmem, hrun⟩
    · simp [linkPlain, linkIdl, split, Split.write]
    · exact linkPlain_of_mem_allRuns (List.mem_cons_of_mem _ hmem) hrun
  have hcut : split findProtected none (l.apply cs) = s :=
    htext ▸ guards_foundBy.split_eq hs.leftmost
  rw [apply, hcut, Split.write_congr hgaps fun _ _ => rfl]
  exact htext

/-- A bracket, a code span, arguments with a name in them and members. -/
theorem apply_apply_shelf :
    let l : Linker := ⟨.cppReference, { pages := [("Shelf", "/shelf"), ("Book", "/book")] }⟩
    let cs := "A Shelf [`x`, a std::map<int, Book>::at() of Book::title()".toList
    l.std.Clean ∧ l.idl.Clean ∧ Part.areTidy (l.parts cs) = true ∧
      l.apply (l.apply cs) = l.apply cs := by
  intro l cs
  have hidl : l.idl.Clean := by decide +kernel
  have htidy : Part.areTidy (l.parts cs) = true := by decide +kernel
  exact ⟨LinkTable.clean_cppReference, hidl, htidy,
    l.apply_apply cs LinkTable.clean_cppReference hidl htidy⟩

/-- Arguments with a line feed become a code span that is not read as one, and a second pass
links the name in them. -/
theorem not_apply_apply_lineFeed : ¬ ∀ (l : Linker) (cs : List Char), l.std.Clean → l.idl.Clean →
    l.apply (l.apply cs) = l.apply cs := by
  intro h
  have hidl : LinkTable.Clean {} := by decide
  have hcs := h ⟨.cppReference, {}⟩ "std::map<std::string,\nint>".toList
    LinkTable.clean_cppReference hidl
  revert hcs
  decide +kernel

end Linker

end DoxPages
