import DoxPages.Proofs.Files.Names

/-!
# Resolved paths

A resolved path stands at the root, and nothing in it goes back. Read back from its text
it is the same path, and it is resolved against any directory to itself.
-/

namespace DoxPages

open Text

/-! ## Going back -/

namespace Path

def enter (done : List String) (p : String) : List String :=
  if p = ".." then done.dropLast else done ++ [p]

theorem collapse_append (ps qs : List String) :
    collapse (ps ++ qs) = qs.foldl enter (collapse ps) := List.foldl_append ..

theorem mem_foldl_enter {ps done : List String} {c : String} (h : c ∈ ps.foldl enter done) :
    c ∈ done ∨ c ∈ ps ∧ c ≠ ".." := by
  induction ps generalizing done with
  | nil => exact .inl h
  | cons p ps ih =>
    rcases ih h with h | ⟨h, hc⟩
    · rw [enter] at h
      split at h
      · exact .inl (List.dropLast_subset _ h)
      · rcases List.mem_append.1 h with h | h
        · exact .inl h
        · obtain rfl := List.mem_singleton.1 h
          exact .inr ⟨List.mem_cons_self, ‹_›⟩
    · exact .inr ⟨List.mem_cons_of_mem _ h, hc⟩

theorem mem_collapse {ps : List String} {c : String} (h : c ∈ collapse ps) : c ∈ ps ∧ c ≠ ".." :=
  (mem_foldl_enter h).resolve_left List.not_mem_nil

theorem foldl_enter {ps : List String} (h : ".." ∉ ps) (done : List String) :
    ps.foldl enter done = done ++ ps := by
  induction ps generalizing done with
  | nil => exact (List.append_nil done).symm
  | cons p ps ih =>
    rw [List.mem_cons, not_or] at h
    rw [List.foldl_cons, ih h.2, enter, if_neg (Ne.symm h.1), List.append_assoc]
    rfl

theorem collapse_eq_self {ps : List String} (h : ".." ∉ ps) : collapse ps = ps :=
  foldl_enter h []

/-! ## Components -/

def Proper (p : Path) : Prop := ∀ c ∈ p.parts, IsComponent c

theorem proper_ofString (s : String) : (ofString s).Proper := fun _ hc => isComponent_of_mem hc

theorem Proper.join {p q : Path} (hp : p.Proper) (hq : q.Proper) : (p / q).Proper := by
  intro c hc
  by_cases habs : q.isAbsolute = true
  · rw [show p / q = q from if_pos habs] at hc
    exact hq c hc
  · rw [show p / q = { p with parts := p.parts ++ q.parts } from if_neg habs] at hc
    rcases List.mem_append.1 hc with hc | hc
    · exact hp c hc
    · exact hq c hc

/-- A path from the root without any way back. -/
structure Resolved (p : Path) : Prop where
  slashes : p.slashes = 1
  no_dots : ".." ∉ p.parts
  proper : p.Proper

theorem resolved_resolve {here p : Path} (h : (here / p).Proper) : (here.resolve p).Resolved where
  slashes := rfl
  no_dots hdots := (mem_collapse hdots).2 rfl
  proper _ hc := h _ (mem_collapse hc).1

theorem Resolved.resolve {here p : Path} (h : here.Resolved) (hp : p.Proper) :
    (here.resolve p).Resolved := resolved_resolve (h.proper.join hp)

theorem resolve_eq_self {p : Path} (h : p.Resolved) (here : Path) : here.resolve p = p := by
  have habs : p.isAbsolute = true := by simp [isAbsolute, h.slashes]
  rw [Path.resolve, show here.join p = p from if_pos habs, collapse_eq_self h.no_dots, ← h.slashes]

theorem resolve_nothing {here : Path} (h : here.Resolved) : here.resolve (ofString "") = here := by
  have hjoin : here.join (ofString "") = here := by
    rw [show ofString "" = ⟨0, []⟩ by decide, join]
    simp [isAbsolute]
  rw [Path.resolve, hjoin, collapse_eq_self h.no_dots, ← h.slashes]

theorem Resolved.parent {p : Path} (h : p.Resolved) : p.parent.Resolved where
  slashes := h.slashes
  no_dots hdots := h.no_dots (List.dropLast_subset _ hdots)
  proper _ hc := h.proper _ (List.dropLast_subset _ hc)

theorem Resolved.locate? {p : Path} (h : p.Resolved) {t : Tree} {here l : Location}
    (hl : t.locate? here p = some l) : l = p.parts := by
  have habs : p.isAbsolute = true := by simp [isAbsolute, h.slashes]
  rw [Tree.locate?, if_pos habs] at hl
  have hwalk {cs : List String} (hcs : ".." ∉ cs) {loc : Location}
      (hl : t.follow? loc cs = some l) : l = loc ++ cs := by
    induction cs generalizing loc with
    | nil => rw [← Option.some.inj hl, List.append_nil]
    | cons c cs ih =>
      rw [List.mem_cons, not_or] at hcs
      rw [Tree.follow?, if_neg (Ne.symm hcs.1)] at hl
      split at hl
      · rw [ih hcs.2 hl, List.append_assoc]
        rfl
      · cases hl
  exact hwalk h.no_dots hl

/-! ## Directories in one another -/

/-- The first path, seen from the root, names the second directory or something in it. -/
def Inside (p q : Path) : Prop := collapse q.parts <+: collapse p.parts

instance (p q : Path) : Decidable (Inside p q) := inferInstanceAs (Decidable (_ <+: _))

def SameDirectory (p q : Path) : Prop := collapse p.parts = collapse q.parts

instance (p q : Path) : Decidable (SameDirectory p q) := inferInstanceAs (Decidable (_ = _))

variable {p q r : Path}

theorem Inside.refl (p : Path) : Inside p p := List.prefix_rfl

theorem Inside.trans (hpq : Inside p q) (hqr : Inside q r) : Inside p r :=
  List.IsPrefix.trans hqr hpq

theorem Inside.antisymm (hpq : Inside p q) (hqp : Inside q p) : SameDirectory p q :=
  hqp.eq_of_length_le hpq.length_le

theorem Inside.of_same (hpq : SameDirectory p q) (h : Inside q r) : Inside p r := by
  rw [Inside, show collapse p.parts = collapse q.parts from hpq]
  exact h

/-- Of two directories that hold the same thing, one holds the other. -/
theorem Inside.total (hq : Inside p q) (hr : Inside p r) : Inside q r ∨ Inside r q :=
  (List.prefix_or_prefix_of_prefix hq hr).symm

/-- Names that do not go back lead into the directory. -/
theorem inside_div (hrelative : q.isAbsolute = false) (hdots : ".." ∉ q.parts) :
    Inside (p / q) p := by
  have hdiv : p / q = { p with parts := p.parts ++ q.parts } := by
    rw [show p / q = p.join q from rfl, join, hrelative]
    rfl
  rw [Inside, hdiv, collapse_append, foldl_enter hdots]
  exact List.prefix_append _ _

/-! ## Texts of paths -/

theorem leadingSlashes_joinWith {ps : List String} (h : ∀ p ∈ ps, IsComponent p) :
    leadingSlashes ('/' :: (joinWith "/" ps).toList) = 1 := by
  cases ps with
  | nil => rfl
  | cons p ps =>
    have hp := h p List.mem_cons_self
    obtain ⟨rest, hrest⟩ : ∃ rest, (joinWith "/" (p :: ps)).toList = p.toList ++ rest := by
      cases ps with
      | nil => exact ⟨[], by simp [joinWith]⟩
      | cons q ps => exact ⟨_, joinWith_cons_cons "/" p q ps⟩
    cases hchars : p.toList with
    | nil => exact absurd (String.toList_eq_nil_iff.1 hchars) hp.ne_empty
    | cons c cs =>
      have hc : c ≠ '/' := by
        rintro rfl
        exact hp.no_slash (by rw [hchars]; exact List.mem_cons_self)
      rw [hrest, hchars, leadingSlashes_eq]
      simp [hc]

/-- The text of a resolved path is read as the path. -/
theorem ofString_toString {p : Path} (h : p.Resolved) : ofString p.toString = p := by
  obtain ⟨slashes, parts⟩ := p
  obtain rfl : slashes = 1 := h.slashes
  have hchars : (toString ⟨1, parts⟩).toList = '/' :: (joinWith "/" parts).toList := by
    rw [toString, if_neg (by simp)]
    simp [List.replicate]
  have hkept : ∀ c ∈ parts, (c ≠ "" && c ≠ ".") = true := by
    intro c hc
    simp [(h.proper c hc).ne_empty, (h.proper c hc).ne_dot]
  have hparts : ((splitChar '/' (joinWith "/" parts).toList).map String.ofList).filter
      (fun p => p ≠ "" && p ≠ ".") = parts := by
    by_cases hnil : parts = []
    · rw [hnil]
      decide
    · rw [splitChar_joinWith_of_not_mem rfl hnil fun p hp => (h.proper p hp).no_slash,
        List.map_map, List.filter_eq_self.2]
      · simp [Function.comp_def]
      · simpa [Function.comp_def] using hkept
  rw [ofString, hchars, leadingSlashes_joinWith h.proper, splitChar, if_pos rfl, List.map_cons,
    List.filter_cons_of_neg (by decide), hparts]

end Path

end DoxPages
