import DoxPages.Proofs.Files.Tree
import DoxPages.Proofs.Text.Split
import DoxPages.Text.LetterCase

/-!
# Files by their names

A text without slashes that is read as a path is one component. So texts that differ
only behind a common front lead to files of one directory, and these are different
files because their names are different.
-/

namespace DoxPages

open Text

/-! ## Lower case -/

theorem toNat_ofNat_le (n : Nat) : (Char.ofNat n).toNat = n ∨ (Char.ofNat n).toNat = 0 := by
  by_cases h : n.isValidChar
  · left
    rw [Char.ofNat, dif_pos h]
    rfl
  · right
    rw [Char.ofNat, dif_neg h]
    rfl
/-- Only a slash has the slash as its lower-case letter. -/
theorem eq_slash_of_lowerChar {c : Char} (h : lowerChar c = '/') : c = '/' := by
  rw [lowerChar] at h
  split at h
  · rename_i hc
    have hall : ∀ n < 128, (Char.ofNat n).toLower = '/' → Char.ofNat n = '/' := by decide
    rw [← Char.ofNat_toNat c] at h ⊢
    exact hall _ hc h
  · split at h
    · rename_i r hr
      -- every run of capital letters has its images beyond the slash
      have hruns : ∀ r ∈ lowerRuns, 47 < r.image := by decide +kernel
      have hlarge := hruns r (List.mem_of_find?_eq_some hr)
      have hnat := congrArg Char.toNat h
      rcases toNat_ofNat_le (r.image + (c.toNat - r.first)) with heq | heq <;>
        rw [heq, show '/'.toNat = 47 from rfl] at hnat <;> omega
    · exact h

theorem slash_not_mem_lower {cs : List Char} (h : '/' ∉ cs) : '/' ∉ lower cs := by
  have hfrom (inWord : Bool) : '/' ∉ lowerFrom inWord cs := by
    induction cs generalizing inWord with
    | nil => exact List.not_mem_nil
    | cons c cs ih =>
      rw [List.mem_cons, not_or] at h
      rw [lowerFrom, List.mem_append, not_or]
      refine ⟨?_, ih h.2 _⟩
      split
      · split <;> decide
      · split
        · decide
        · rw [List.mem_singleton]
          exact fun hc => h.1 (eq_slash_of_lowerChar hc.symm).symm
  exact hfrom false
/-! ## Paths -/

namespace Path

structure IsComponent (name : String) : Prop where
  no_slash : '/' ∉ name.toList
  ne_empty : name ≠ ""
  ne_dot : name ≠ "."

theorem isComponent_of_mem {s name : String} (h : name ∈ (ofString s).parts) :
    IsComponent name := by
  obtain ⟨hmem, hne⟩ := List.mem_filter.1 h
  obtain ⟨piece, hpiece, rfl⟩ := List.mem_map.1 hmem
  rw [Bool.and_eq_true, decide_eq_true_eq, decide_eq_true_eq] at hne
  exact
    { no_slash := by rw [String.toList_ofList]; exact not_mem_of_mem_splitChar hpiece
      ne_empty := hne.1
      ne_dot := hne.2 }

theorem leadingSlashes_eq (cs : List Char) : leadingSlashes cs =
    match (cs.takeWhile (· = '/')).length with
    | 0 => 0
    | 2 => 2
    | _ => 1 := by
  have hnot {c : Char} (hc : c ≠ '/') (cs : List Char) :
      (c :: cs).takeWhile (fun c => decide (c = '/')) = [] := by simp [hc]
  have hslash (cs : List Char) : ('/' :: cs).takeWhile (fun c => decide (c = '/')) =
      '/' :: cs.takeWhile (fun c => decide (c = '/')) := by simp
  fun_cases leadingSlashes cs with
  | case1 cs => simp [hslash]
  | case2 cs hthree =>
    cases cs with
    | nil => rfl
    | cons c cs =>
      rw [hslash, hslash, hnot fun hc => hthree cs (by rw [hc])]
      rfl
  | case3 cs hthree htwo =>
    cases cs with
    | nil => rfl
    | cons c cs =>
      rw [hslash, hnot fun hc => htwo cs (by rw [hc])]
      rfl
  | case4 cs hthree htwo hone =>
    cases cs with
    | nil => rfl
    | cons c cs =>
      rw [hnot fun hc => hone cs (by rw [hc])]
      rfl

theorem leadingSlashes_append (cs : List Char) {ds : List Char} (h : '/' ∉ ds) :
    leadingSlashes (cs ++ ds) = leadingSlashes cs := by
  have hds : ds.takeWhile (fun c => c = '/') = [] := by
    cases ds with
    | nil => rfl
    | cons d ds =>
      rw [List.mem_cons, not_or] at h
      simp [Ne.symm h.1]
  have hrun : (cs ++ ds).takeWhile (fun c => c = '/') = cs.takeWhile fun c => c = '/' := by
    rw [List.takeWhile_append, hds, List.append_nil]
    split
    · rename_i hall
      exact ((List.takeWhile_prefix _).eq_of_length hall).symm
    · rfl
  rw [leadingSlashes_eq, leadingSlashes_eq, hrun]

theorem ofString_component {name : String} (h : IsComponent name) :
    ofString name = ⟨0, [name]⟩ := by
  have hslashes := leadingSlashes_append [] h.no_slash
  rw [List.nil_append] at hslashes
  rw [ofString, hslashes, splitChar_of_not_mem h.no_slash]
  simp [h.ne_empty, h.ne_dot, leadingSlashes]

/-- Behind a common front, texts without slashes name files of one directory. -/
theorem ofString_append (dir : Path) (front : List Char) : ∃ slashes dirs last,
    ∀ cs : List Char, '/' ∉ cs → 2 ≤ cs.length →
      dir / ofString (String.ofList (front ++ cs)) =
        ⟨slashes, dirs ++ [String.ofList (last ++ cs)]⟩ := by
  obtain ⟨pieces, last, hsplit⟩ := splitChar_append '/' front
  generalize hkept : ((pieces.map String.ofList).filter fun p => p ≠ "" && p ≠ ".") = kept
  have hparts (cs : List Char) (h : '/' ∉ cs) (hlen : 2 ≤ cs.length) :
      ofString (String.ofList (front ++ cs)) =
        ⟨leadingSlashes front, kept ++ [String.ofList (last ++ cs)]⟩ := by
    have hshort {s : String} (hs : s.toList.length < 2) : String.ofList (last ++ cs) ≠ s := by
      rintro rfl
      rw [String.toList_ofList, List.length_append] at hs
      omega
    rw [ofString, String.toList_ofList, leadingSlashes_append front h, hsplit cs h,
      List.map_append, List.filter_append, hkept, List.map_singleton, List.filter_cons_of_pos]
    · rfl
    · simp only [Bool.and_eq_true, decide_eq_true_eq]
      exact ⟨hshort (by decide), hshort (by decide)⟩
  by_cases habs : leadingSlashes front = 0
  · refine ⟨dir.slashes, dir.parts ++ kept, last, fun cs h hlen => ?_⟩
    show join _ _ = _
    rw [hparts cs h hlen, join, isAbsolute]
    simp [habs]
  · refine ⟨leadingSlashes front, kept, last, fun cs h hlen => ?_⟩
    show join _ _ = _
    rw [hparts cs h hlen, join, isAbsolute]
    simp [habs]

end Path

/-! ## Files of a directory -/

namespace Tree

variable {t : Tree} {here : Location} {slashes : Nat} {dirs : List String} {name : String}

theorem locate?_concat (hname : name ≠ "..") {loc : Location}
    (h : t.locate? here ⟨slashes, dirs ++ [name]⟩ = some loc) :
    ∃ dir, t.follow? (if slashes ≠ 0 then [] else here) dirs = some dir ∧ loc = dir ++ [name] := by
  rw [locate?, follow?_append] at h
  obtain ⟨dir, hdir, hlast⟩ := Option.bind_eq_some_iff.1 h
  rw [follow?, if_neg hname] at hlast
  split at hlast
  · refine ⟨dir, ?_, (Option.some.inj hlast).symm⟩
    rw [← hdir]
    simp [Path.isAbsolute]
  · cases hlast

/-- Files of one directory are different if their names are. -/
theorem name_eq_of_locate? {name' : String} (hname : name ≠ "..") (hname' : name' ≠ "..")
    {loc : Location} (h : t.locate? here ⟨slashes, dirs ++ [name]⟩ = some loc)
    (h' : t.locate? here ⟨slashes, dirs ++ [name']⟩ = some loc) : name = name' := by
  obtain ⟨dir, hdir, rfl⟩ := locate?_concat hname h
  obtain ⟨dir', hdir', heq⟩ := locate?_concat hname' h'
  rw [hdir, Option.some.injEq] at hdir'
  rw [hdir', List.append_cancel_left_eq] at heq
  exact List.singleton_inj.1 heq

def Below (t : Tree) (l : Location) : Prop := ∀ l', l' <+: l → l' ≠ l → t.isDir l' = true

theorem Below.mono {t' : Tree} {l : Location} (h : t.Below l)
    (hgrows : ∀ l, t.isDir l = true → t'.isDir l = true) : t'.Below l :=
  fun l' hl' hne => hgrows l' (h l' hl' hne)

theorem Below.dropLast {l : Location} (h : t.Below l) :
    t.isDir l.dropLast = true ∧ t.Below l.dropLast := by
  by_cases hl : l = []
  · subst hl
    exact ⟨isDir_nil t, h⟩
  · have hne {l' : Location} (hl' : l' <+: l.dropLast) : l' ≠ l := by
      rintro rfl
      have hlength := hl'.length_le
      rw [List.length_dropLast] at hlength
      have := List.length_pos_iff.2 hl
      omega
    have hall (l' : Location) (hl' : l' <+: l.dropLast) : t.isDir l' = true :=
      h l' (hl'.trans l.dropLast_prefix) (hne hl')
    exact ⟨hall _ List.prefix_rfl, fun l' hl' _ => hall l' hl'⟩

theorem Below.follow? {loc l : Location} {cs : List String} (hloc : t.Below loc)
    (h : t.follow? loc cs = some l) : t.Below l := by
  induction cs generalizing loc with
  | nil =>
    obtain rfl : loc = l := Option.some.inj h
    exact hloc
  | cons c cs ih =>
    rw [Tree.follow?] at h
    split at h
    · rename_i hc
      refine ih ?_ h
      split
      · exact hloc.dropLast.2
      · intro l' hl' hne
        rcases List.prefix_concat_iff.1 hl' with rfl | hl'
        · exact absurd rfl hne
        · by_cases heq : l' = loc
          · rw [heq]
            exact hc.1
          · exact hloc l' hl' heq
    · cases h

theorem Below.start {p : Path} (h : t.Below here) : t.Below (start here p) := by
  unfold Tree.start
  split
  · exact fun l' hl' hne => absurd (List.prefix_nil.1 hl') hne
  · exact h

theorem Below.isDir_of_dots {p : Path} {l : Location} (h : t.Below here)
    (hparts : p.parts = dirs ++ [".."]) (hp : t.locate? here p = some l) : t.isDir l = true := by
  rw [locate?, hparts, follow?_append] at hp
  obtain ⟨m, hm, hlast⟩ := Option.bind_eq_some_iff.1 hp
  rw [Tree.follow?] at hlast
  split at hlast
  · obtain rfl : m.dropLast = l := Option.some.inj hlast
    exact (h.start.follow? hm).dropLast.1
  · cases hlast

/-- A path without components leads to the root or to the directory it is seen from. -/
theorem HasDir.isDir_of_no_parts {dir q : Path} {l : Location} (hdir : t.HasDir here dir)
    (hq : q.parts = []) (hfile : t.locate? here (dir / q) = some l) : t.isDir l = true := by
  obtain ⟨d, hdir, hd⟩ := hdir
  by_cases habs : q.isAbsolute = true
  · rw [show dir / q = q from if_pos habs, locate?, if_pos habs, hq] at hfile
    obtain rfl : [] = l := Option.some.inj hfile
    exact isDir_nil t
  · have hjoin : dir / q = dir := by
      refine (if_neg habs).trans ?_
      rw [hq, List.append_nil]
    rw [hjoin, hdir, Option.some.injEq] at hfile
    rwa [← hfile]

structure EndsInName (p : Path) : Prop where
  parts : ∃ dirs, p.parts = dirs ++ [p.name]
  component : Path.IsComponent p.name
  ne_dots : p.name ≠ ".."

/-- What stands at a path from a directory and is no directory has a name. -/
theorem HasDir.endsInName {dir : Path} {s : String} {l : Location} (hdir : t.HasDir here dir)
    (hbelow : t.Below here) (hfile : t.locate? here (dir / Path.ofString s) = some l)
    (hl : t.isDir l = false) :
    EndsInName (dir / Path.ofString s) := by
  rcases List.eq_nil_or_concat (Path.ofString s).parts with hnil | ⟨parts, name, hparts⟩
  · rw [hdir.isDir_of_no_parts hnil hfile] at hl
    cases hl
  · rw [List.concat_eq_append] at hparts
    obtain ⟨dirs, hdirs⟩ : ∃ dirs, (dir / Path.ofString s).parts = dirs ++ [name] := by
      by_cases habs : (Path.ofString s).isAbsolute = true
      · exact ⟨parts, (congrArg Path.parts (if_pos habs)).trans hparts⟩
      · refine ⟨dir.parts ++ parts, (congrArg Path.parts (if_neg habs)).trans ?_⟩
        rw [hparts, List.append_assoc]
    have hname : (dir / Path.ofString s).name = name := by
      rw [Path.name, hdirs, List.getLast?_concat, Option.getD_some]
    refine ⟨⟨dirs, hname.symm ▸ hdirs⟩, ?_, ?_⟩
    · rw [hname]
      exact Path.isComponent_of_mem (by rw [hparts]; simp)
    · rw [hname]
      rintro rfl
      rw [hbelow.isDir_of_dots hdirs hfile] at hl
      cases hl

namespace EndsInName

variable {p q : Path}

theorem join (dir : Path) (hp : EndsInName p) : EndsInName (dir / Path.ofString p.name) ∧
    (dir / Path.ofString p.name).name = p.name := by
  have hjoin : dir / Path.ofString p.name = ⟨dir.slashes, dir.parts ++ [p.name]⟩ := by
    rw [Path.ofString_component hp.component]
    rfl
  have hname : (dir / Path.ofString p.name).name = p.name := by
    rw [hjoin, Path.name, List.getLast?_concat, Option.getD_some]
  refine ⟨⟨⟨dir.parts, ?_⟩, ?_, ?_⟩, hname⟩
  · rw [hname, hjoin]
  · rw [hname]
    exact hp.component
  · rw [hname]
    exact hp.ne_dots

theorem locate? {l : Location} (hp : EndsInName p) (hl : t.locate? here p = some l) :
    ∃ dir, l = dir ++ [p.name] := by
  obtain ⟨dirs, hdirs⟩ := hp.parts
  rw [show p = ⟨p.slashes, dirs ++ [p.name]⟩ by rw [← hdirs]] at hl
  obtain ⟨dir, -, heq⟩ := locate?_concat hp.ne_dots hl
  exact ⟨dir, heq⟩

theorem name_eq {l : Location} (hp : EndsInName p) (hq : EndsInName q)
    (hlp : t.locate? here p = some l) (hlq : t.locate? here q = some l) : p.name = q.name := by
  obtain ⟨dir, rfl⟩ := hp.locate? hlp
  obtain ⟨dir', heq⟩ := hq.locate? hlq
  exact List.singleton_inj.1 (List.append_inj' heq rfl).2

end EndsInName

end Tree

end DoxPages
