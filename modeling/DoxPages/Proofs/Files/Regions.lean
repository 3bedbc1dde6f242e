import DoxPages.Proofs.Files.Resolved

/-!
# Parts of a tree

`route` lists the locations that a path passes. What is found at its end depends on these
alone: trees that agree off a region, `AgreesOff`, look the same along every path that keeps
clear of it, and they still agree when the same is made or written in both. `ChangesOnly`
says that nothing outside a directory was changed.
-/

namespace DoxPages.Tree

open DoxPages.Path

/-! ## Routes -/

/-- The locations on the way from a location, whatever stands there. -/
def route (loc : Location) : List String → List Location
  | [] => [loc]
  | c :: cs => loc :: route (enter loc c) cs

def routeOf (here : Location) (p : Path) : List Location := route (start here p) p.parts

theorem head_mem_route (loc : Location) (cs : List String) : loc ∈ route loc cs := by
  cases cs <;> exact List.mem_cons_self

theorem mem_route_append {l loc : Location} {cs ds : List String} :
    l ∈ route loc (cs ++ ds) ↔ l ∈ route loc cs ∨ l ∈ route (cs.foldl enter loc) ds := by
  induction cs generalizing loc with
  | nil =>
    rw [List.nil_append, List.foldl_nil, route, List.mem_singleton]
    refine ⟨.inr, ?_⟩
    rintro (rfl | h)
    · exact head_mem_route _ ds
    · exact h
  | cons c cs ih =>
    rw [List.cons_append, route, route, List.mem_cons, List.mem_cons, ih, or_assoc,
      List.foldl_cons]

theorem routeOf_join {here l : Location} {p q : Path} (hq : q.isAbsolute = false) :
    l ∈ routeOf here (p / q) ↔
      l ∈ routeOf here p ∨ l ∈ route (p.parts.foldl enter (start here p)) q.parts := by
  have hjoin : p / q = { p with parts := p.parts ++ q.parts } := by
    show join p q = _
    rw [join, hq]
    rfl
  rw [routeOf, hjoin]
  exact mem_route_append

theorem follow?_eq_foldl {t : Tree} {loc l : Location} {cs : List String}
    (h : t.follow? loc cs = some l) : l = cs.foldl enter loc := by
  induction cs generalizing loc with
  | nil => exact (Option.some.inj h).symm
  | cons c cs ih =>
    rw [follow?] at h
    split at h
    · exact ih h
    · cases h

theorem locate?_mem_routeOf {t : Tree} {here l : Location} {p : Path}
    (h : t.locate? here p = some l) : l ∈ routeOf here p := by
  have hend : l ∈ route l [] := head_mem_route l []
  rw [follow?_eq_foldl h] at hend ⊢
  have happend := mem_route_append.2 (.inr hend)
  rwa [List.append_nil] at happend

/-! ## Trees that agree off a region -/

/-- The trees have the same entries at all locations but those in `D`. -/
def AgreesOff (D : Location → Prop) (t t' : Tree) : Prop := ∀ l, ¬ D l → t.entry? l = t'.entry? l

namespace AgreesOff

variable {D : Location → Prop} {t t' : Tree} {here loc : Location} {cs : List String} {p : Path}

theorem refl (t : Tree) : t.AgreesOff D t := fun _ _ => rfl

theorem isDir (h : t.AgreesOff D t') (hloc : ¬ D loc) : t.isDir loc = t'.isDir loc := by
  rw [Tree.isDir, Tree.isDir, h loc hloc]

theorem follow? (h : t.AgreesOff D t') (hclear : ∀ l ∈ route loc cs, ¬ D l) :
    t.follow? loc cs = t'.follow? loc cs := by
  induction cs generalizing loc with
  | nil => rfl
  | cons c cs ih =>
    rw [route, List.forall_mem_cons] at hclear
    rw [Tree.follow?, Tree.follow?, h.isDir hclear.1]
    split
    · exact ih hclear.2
    · rfl

theorem locate? (h : t.AgreesOff D t') (hclear : ∀ l ∈ routeOf here p, ¬ D l) :
    t.locate? here p = t'.locate? here p := h.follow? hclear

/-- Files that are reached without passing the region have the same text. -/
theorem read? (h : t.AgreesOff D t') (hclear : ∀ l ∈ routeOf here p, ¬ D l) :
    t.read? here p = t'.read? here p := by
  have hfind : t.find? here p = t'.find? here p := by
    rw [find?, find?, ← h.locate? hclear]
    cases hl : t.locate? here p with
    | none => rfl
    | some l => exact h l (hclear l (locate?_mem_routeOf hl))
  rw [Tree.read?, Tree.read?, hfind]

theorem set (h : t.AgreesOff D t') (hloc : loc ≠ []) (e : Entry) :
    (t.set loc e).AgreesOff D (t'.set loc e) := by
  intro l hl
  rw [entry?_set hloc, entry?_set hloc, h l hl]

theorem makeDirs (h : t.AgreesOff D t') (hclear : ∀ l ∈ route loc cs, ¬ D l) :
    (t.makeDirs loc cs).2 = (t'.makeDirs loc cs).2 ∧
      (t.makeDirs loc cs).1.AgreesOff D (t'.makeDirs loc cs).1 := by
  induction cs generalizing t t' loc with
  | nil => exact ⟨h.isDir (hclear loc (head_mem_route loc [])), h⟩
  | cons c cs ih =>
    have hstep (l : Location) (hl : l ∈ route loc [c]) : ¬ D l :=
      hclear l (mem_route_append.2 (.inl hl))
    rw [Tree.makeDirs, Tree.makeDirs, ← h.follow? hstep]
    cases hnext : t.follow? loc [c] with
    | none => exact ⟨rfl, h⟩
    | some next =>
      obtain rfl := follow?_eq_foldl hnext
      have hrest (l : Location) (hl : l ∈ route ([c].foldl enter loc) cs) : ¬ D l :=
        hclear l (mem_route_append.2 (.inr hl))
      simp only
      rw [← h _ (hrest _ (head_mem_route _ cs))]
      cases hentry : t.entry? ([c].foldl enter loc) with
      | none =>
        refine ih (h.set ?_ .dir) hrest
        intro hroot
        rw [hroot, entry?_nil] at hentry
        cases hentry
      | some e =>
        cases e with
        | dir => exact ih h hrest
        | file text x => exact ⟨rfl, h⟩

theorem write? (h : t.AgreesOff D t') (hclear : ∀ l ∈ routeOf here p, ¬ D l) (text : String) :
    Option.Rel (AgreesOff D) (t.write? here p text) (t'.write? here p text) := by
  unfold Tree.write?
  rw [← h.locate? hclear]
  cases hl : t.locate? here p with
  | none => exact .none
  | some l =>
    simp only [Option.bind_eq_bind, Option.bind_some]
    rw [← h l (hclear l (locate?_mem_routeOf hl))]
    have hne {e : Option Entry} (he : t.entry? l = e) (hdir : e ≠ some .dir) : l ≠ [] := by
      rintro rfl
      exact hdir (he.symm.trans (entry?_nil t))
    cases hentry : t.entry? l with
    | none => exact .some (h.set (hne hentry nofun) _)
    | some e =>
      cases e with
      | dir => exact .none
      | file old x => exact .some (h.set (hne hentry nofun) _)

end AgreesOff

/-! ## Changes in one directory -/

structure ChangesOnly (d : Location) (t t' : Tree) : Prop where
  isDir : ∀ l, t.isDir l = true → t'.isDir l = true
  outside : ∀ l, ¬ d <+: l → t'.entry? l = t.entry? l

namespace ChangesOnly

variable {d : Location} {t t' t'' : Tree} {here : Location} {p : Path}

theorem refl (d : Location) (t : Tree) : t.ChangesOnly d t := ⟨fun _ h => h, fun _ _ => rfl⟩

theorem trans (h : t.ChangesOnly d t') (h' : t'.ChangesOnly d t'') : t.ChangesOnly d t'' where
  isDir l hl := h'.isDir l (h.isDir l hl)
  outside l hl := (h'.outside l hl).trans (h.outside l hl)

theorem hasDir (h : t.ChangesOnly d t') (hdir : t.HasDir here p) : t'.HasDir here p := by
  obtain ⟨l, hl, hd⟩ := hdir
  exact ⟨l, follow?_mono h.isDir hl, h.isDir l hd⟩

theorem of_set {loc : Location} (hloc : d <+: loc) (hdir : t.isDir loc = false) (e : Entry) :
    t.ChangesOnly d (t.set loc e) := by
  have hne : loc ≠ [] := by
    rintro rfl
    rw [isDir_nil] at hdir
    cases hdir
  constructor
  · intro l hl
    rw [Tree.isDir, entry?_set hne, if_neg]
    · exact hl
    · rintro rfl
      rw [hdir] at hl
      cases hl
  · intro l hl
    rw [entry?_set hne, if_neg]
    rintro rfl
    exact hl hloc

end ChangesOnly

variable {t t' : Tree} {d here : Location} {p : Path}

theorem changesOnly_makeDirs {c : String} (hc : c ≠ "..") (l : Location) :
    t.ChangesOnly (l ++ [c]) (t.makeDirs l [c]).1 := by
  rw [makeDirs]
  cases hnext : t.follow? l [c] with
  | none => exact .refl _ t
  | some next =>
    obtain rfl : next = l ++ [c] := by
      rw [follow?_eq_foldl hnext]
      exact if_neg hc
    simp only
    cases hentry : t.entry? (l ++ [c]) with
    | none => exact .of_set List.prefix_rfl (by simp [isDir, hentry]) .dir
    | some e => cases e <;> exact .refl _ t

theorem changesOnly_write? {text : String} (h : t.write? here p text = some t')
    (hfile : ∀ l, t.locate? here p = some l → t.isDir l = false → d <+: l) :
    t.ChangesOnly d t' := by
  unfold write? at h
  cases hl : t.locate? here p with
  | none =>
    rw [hl] at h
    cases h
  | some l =>
    rw [hl] at h
    simp only [Option.bind_eq_bind, Option.bind_some] at h
    cases hentry : t.entry? l with
    | none =>
      rw [hentry] at h
      have hdir : t.isDir l = false := by simp [isDir, hentry]
      rw [← Option.some.inj h]
      exact .of_set (hfile l hl hdir) hdir _
    | some e =>
      rw [hentry] at h
      cases e with
      | dir => cases h
      | file old x =>
        have hdir : t.isDir l = false := by simp [isDir, hentry]
        rw [← Option.some.inj h]
        exact .of_set (hfile l hl hdir) hdir _

end DoxPages.Tree
