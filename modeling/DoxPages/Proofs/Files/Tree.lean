import DoxPages.Assoc
import DoxPages.Files.Tree
import DoxPages.Proofs.Sorting

/-!
# What changes in a tree

A tree is told by what stands at each location. `Wrote` says that texts were written
to files in order: no path leads elsewhere, and a file holds the last text that was
written to its location. `Grows` says that all that was there is there: directories
that are made take the place of nothing.
-/

namespace DoxPages.Tree

/-! ## One entry -/

theorem lookup_set (t : Tree) (loc : Location) (e : Entry) (l : Location) :
    (t.set loc e).entries.lookup l = if l = loc then some e else t.entries.lookup l := by
  unfold set
  split
  · rename_i hmem
    refine (congrArg (List.lookup l) (?_ : _ = Assoc.adjust loc (fun _ => e) t.entries)).trans ?_
    · refine List.map_congr_left fun x _ => ?_
      by_cases hx : x.1 = loc
      · simp [hx]
      · simp [hx, Ne.symm hx]
    by_cases hl : l = loc
    · obtain ⟨old, hold⟩ := Option.isSome_iff_exists.1 hmem
      rw [if_pos hl, hl, Assoc.lookup_adjust_self, hold]
      rfl
    · rw [if_neg hl, Assoc.lookup_adjust_of_ne hl]
  · rename_i hmem
    rw [Bool.not_eq_true, Option.isSome_eq_false_iff, Option.isNone_iff_eq_none] at hmem
    show List.lookup l (t.entries ++ [(loc, e)]) = _
    rw [List.lookup_append]
    by_cases hl : l = loc
    · simp [hl, hmem]
    · have hne : (l == loc) = false := by simpa using hl
      simp [List.lookup_cons, hne, hl]

theorem entry?_set {loc : Location} (hloc : loc ≠ []) (t : Tree) (e : Entry) (l : Location) :
    entry? (t.set loc e) l = if l = loc then some e else t.entry? l := by
  unfold entry?
  rw [lookup_set]
  by_cases hl : l = loc
  · simp [hl, hloc]
  · simp [hl]

@[simp] theorem entry?_nil (t : Tree) : t.entry? [] = some .dir := if_pos rfl

theorem isDir_nil (t : Tree) : t.isDir [] = true := by simp [isDir]

theorem follow?_append (t : Tree) (loc : Location) (cs ds : List String) :
    t.follow? loc (cs ++ ds) = (t.follow? loc cs).bind fun l => t.follow? l ds := by
  induction cs generalizing loc with
  | nil => rfl
  | cons c cs ih =>
    rw [List.cons_append, follow?, follow?]
    split
    · exact ih _
    · rfl

def HasDir (t : Tree) (here : Location) (p : Path) : Prop :=
  ∃ l, t.locate? here p = some l ∧ t.isDir l = true

abbrev start (here : Location) (p : Path) : Location := if p.isAbsolute then [] else here

theorem exists_locate?_of_read? {t : Tree} {here : Location} {p : Path} {text : String}
    (h : t.read? here p = some text) : ∃ l, t.locate? here p = some l := by
  cases hl : t.locate? here p with
  | some l => exact ⟨l, rfl⟩
  | none =>
    rw [read?, find?, hl] at h
    cases h

theorem follow?_mono {t t' : Tree} (h : ∀ l, t.isDir l = true → t'.isDir l = true)
    {loc l : Location} {cs : List String} (hl : t.follow? loc cs = some l) :
    t'.follow? loc cs = some l := by
  induction cs generalizing loc with
  | nil => exact hl
  | cons c cs ih =>
    rw [follow?] at hl ⊢
    split at hl
    · rename_i hc
      rw [if_pos ⟨h loc hc.1, hc.2⟩]
      exact ih hl
    · cases hl

/-! ## Trees that grow -/

def Grows (t t' : Tree) : Prop := ∀ l e, t.entry? l = some e → t'.entry? l = some e

namespace Grows

variable {t t' t'' : Tree}

theorem refl (t : Tree) : t.Grows t := fun _ _ h => h

theorem trans (h : t.Grows t') (h' : t'.Grows t'') : t.Grows t'' :=
  fun l e hl => h' l e (h l e hl)

theorem isDir (h : t.Grows t') {l : Location} (hl : t.isDir l = true) : t'.isDir l = true :=
  decide_eq_true (h l .dir (of_decide_eq_true hl))

theorem follow? (h : t.Grows t') {loc l : Location} {cs : List String}
    (hl : t.follow? loc cs = some l) : t'.follow? loc cs = some l :=
  follow?_mono (fun _ => h.isDir) hl

theorem locate? (h : t.Grows t') {here l : Location} {p : Path}
    (hl : t.locate? here p = some l) : t'.locate? here p = some l := h.follow? hl

theorem read? (h : t.Grows t') {here : Location} {p : Path} {text : String}
    (hp : t.read? here p = some text) : t'.read? here p = some text := by
  unfold Tree.read? Tree.find? at hp ⊢
  cases hloc : t.locate? here p with
  | none =>
    rw [hloc] at hp
    cases hp
  | some l =>
    rw [hloc, Option.bind_some] at hp
    rw [h.locate? hloc, Option.bind_some]
    cases he : t.entry? l with
    | none =>
      rw [he] at hp
      cases hp
    | some e => rwa [h l e he, ← he]

end Grows

/-! ## Making directories -/

theorem grows_set {t : Tree} {loc : Location} {e : Entry} (h : t.entry? loc = none) :
    t.Grows (t.set loc e) := by
  have hloc : loc ≠ [] := by
    rintro rfl
    simp at h
  intro l e' hl
  rw [entry?_set hloc, if_neg]
  · exact hl
  · rintro rfl
    rw [h] at hl
    cases hl

theorem grows_append (t : Tree) (es : List (Location × Entry)) : t.Grows ⟨t.entries ++ es⟩ := by
  intro l e hl
  unfold entry? at hl ⊢
  split at hl
  · rwa [if_pos ‹_›]
  · rw [if_neg ‹_›, List.lookup_append, hl]
    rfl

/-- Making directories leads to a directory, if it does not stop before. -/
theorem makeDirs_spec (t : Tree) (loc : Location) (cs : List String) :
    t.Grows (t.makeDirs loc cs).1 ∧ ((t.makeDirs loc cs).2 = true →
      ∃ l, (t.makeDirs loc cs).1.follow? loc cs = some l ∧
        (t.makeDirs loc cs).1.isDir l = true) := by
  induction cs generalizing t loc with
  | nil => exact ⟨.refl t, fun h => ⟨loc, rfl, h⟩⟩
  | cons c cs ih =>
    rw [makeDirs]
    cases hnext : t.follow? loc [c] with
    | none => exact ⟨.refl t, nofun⟩
    | some next =>
      simp only
      -- the step to `next` is still there in every tree that `t` grows into
      have hstep {u : Tree} (hu : t.Grows u) : u.follow? loc (c :: cs) = u.follow? next cs := by
        rw [← List.singleton_append, follow?_append, hu.follow? hnext, Option.bind_some]
      cases he : t.entry? next with
      | none =>
        have hgrows := grows_set (e := .dir) he
        obtain ⟨hrest, hdone⟩ := ih (t.set next .dir) next
        refine ⟨hgrows.trans hrest, fun h => ?_⟩
        rw [hstep (hgrows.trans hrest)]
        exact hdone h
      | some e =>
        cases e with
        | file text x => exact ⟨.refl t, nofun⟩
        | dir =>
          obtain ⟨hrest, hdone⟩ := ih t next
          refine ⟨hrest, fun h => ?_⟩
          rw [hstep hrest]
          exact hdone h

/-- Below a directory that is there, only what is missing is made. -/
theorem makeDirs_append {t : Tree} {loc l : Location} {cs : List String}
    (h : t.follow? loc cs = some l) (hl : t.isDir l = true) (ds : List String) :
    t.makeDirs loc (cs ++ ds) = t.makeDirs l ds := by
  induction cs generalizing loc with
  | nil =>
    obtain rfl : loc = l := Option.some.inj h
    rfl
  | cons c cs ih =>
    rw [← List.singleton_append, follow?_append] at h
    obtain ⟨next, hnext, hrest⟩ := Option.bind_eq_some_iff.1 h
    have hdir : t.entry? next = some .dir := by
      cases cs with
      | nil =>
        obtain rfl : next = l := Option.some.inj hrest
        exact of_decide_eq_true hl
      | cons d ds =>
        rw [follow?] at hrest
        split at hrest
        · rename_i hd
          exact of_decide_eq_true hd.1
        · cases hrest
    rw [List.cons_append, makeDirs, hnext]
    simp only [hdir]
    exact ih hrest

theorem makeDirs_of_isDir {t : Tree} {loc l : Location} {cs : List String}
    (h : t.follow? loc cs = some l) (hl : t.isDir l = true) : t.makeDirs loc cs = (t, true) := by
  rw [← List.append_nil cs, makeDirs_append h hl, makeDirs, hl]

/-! ## Writing files -/

/-- The second tree is the first one with texts written to files, one after another. -/
structure Wrote (here : Location) (ws : List (Path × String)) (t t' : Tree) : Prop where
  isDir : ∀ l, t'.isDir l = t.isDir l
  located : ∀ w ∈ ws, ∃ l, t.locate? here w.1 = some l ∧ t.isDir l = false
  read : ∀ q, t'.read? here q =
    ((ws.reverse.find? fun w => t.locate? here w.1 = t.locate? here q).map Prod.snd).or
      (t.read? here q)

theorem follow?_congr {t t' : Tree} (h : ∀ l, t'.isDir l = t.isDir l) (loc : Location)
    (cs : List String) : t'.follow? loc cs = t.follow? loc cs := by
  induction cs generalizing loc with
  | nil => rfl
  | cons c cs ih => rw [follow?, follow?, h, ih]

namespace Wrote

variable {here : Location} {ws vs : List (Path × String)} {t t' t'' : Tree}

theorem locate (h : Wrote here ws t t') (q : Path) : t'.locate? here q = t.locate? here q :=
  follow?_congr h.isDir _ _

theorem refl (here : Location) (t : Tree) : Wrote here [] t t where
  isDir _ := rfl
  located := nofun
  read _ := rfl

theorem append (h : Wrote here ws t t') (h' : Wrote here vs t' t'') :
    Wrote here (ws ++ vs) t t'' where
  isDir l := (h'.isDir l).trans (h.isDir l)
  located w hw := by
    rcases List.mem_append.1 hw with hw | hw
    · exact h.located w hw
    · obtain ⟨l, hl, hdir⟩ := h'.located w hw
      exact ⟨l, h.locate w.1 ▸ hl, h.isDir l ▸ hdir⟩
  read q := by
    rw [h'.read, h.read, List.reverse_append, List.find?_append, Option.map_or, Option.or_assoc]
    simp only [h.locate]

theorem read_append_singleton {q : Path} {text : String}
    (h : Wrote here (ws ++ [(q, text)]) t t') :
    t'.read? here q = some text := by
  rw [h.read, List.reverse_append]
  simp

/-- What was written to one location only is there. -/
theorem read_of_mem (h : Wrote here ws t t') {w : Path × String} (hw : w ∈ ws)
    (hunique : ∀ v ∈ ws, t.locate? here v.1 = t.locate? here w.1 → v = w) :
    t'.read? here w.1 = some w.2 := by
  have hlast : ws.reverse.find? (fun v => t.locate? here v.1 = t.locate? here w.1) = some w := by
    refine find?_eq_some_of_unique (List.mem_reverse.2 hw) (decide_eq_true rfl) fun v hv hloc => ?_
    exact hunique v (List.mem_reverse.1 hv) (of_decide_eq_true hloc)
  rw [h.read, hlast]
  rfl

end Wrote

theorem wrote_write? {t t' : Tree} {here : Location} {p : Path} {text : String}
    (h : t.write? here p text = some t') : Wrote here [(p, text)] t t' := by
  unfold write? at h
  obtain ⟨loc, hloc, h⟩ := Option.bind_eq_some_iff.1 h
  obtain ⟨x, hnotDir, rfl⟩ : ∃ x, t.entry? loc ≠ some .dir ∧ t' = t.set loc (.file text x) := by
    cases he : t.entry? loc with
    | none =>
      rw [he] at h
      exact ⟨false, nofun, (Option.some.inj h).symm⟩
    | some e =>
      rw [he] at h
      cases e with
      | dir => cases h
      | file old x => exact ⟨x, nofun, (Option.some.inj h).symm⟩
  have hne : loc ≠ [] := by
    rintro rfl
    exact hnotDir t.entry?_nil
  have hisDir (l : Location) : (t.set loc (.file text x)).isDir l = t.isDir l := by
    unfold isDir
    rw [entry?_set hne]
    by_cases hl : l = loc
    · simp [hl, hnotDir]
    · simp [hl]
  refine
    { isDir := hisDir
      located := ?_
      read := fun q => ?_ }
  · intro w hw
    obtain rfl := List.mem_singleton.1 hw
    exact ⟨loc, hloc, decide_eq_false hnotDir⟩
  · have hq : (t.set loc (.file text x)).locate? here q = t.locate? here q :=
      follow?_congr hisDir _ _
    rw [List.reverse_singleton, read?, read?, find?, find?, hq]
    cases hl : t.locate? here q with
    | none => simp [hloc]
    | some l =>
      rw [Option.bind_some, Option.bind_some, entry?_set hne]
      by_cases heq : l = loc
      · simp [heq, hloc]
      · simp [heq, hloc, Ne.symm heq]

end DoxPages.Tree
