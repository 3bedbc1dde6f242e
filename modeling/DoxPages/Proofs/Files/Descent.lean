import DoxPages.Proofs.Files.Resolved
import Mathlib.Data.Fintype.EquivFin
import Mathlib.Data.List.Infix

/-!
# Names that stay below a directory

A path that is relative and goes back at no point above its start (`StaysBelow`) stays below
whatever directory it is put behind. Any other path leads out of some directory: out of one with
a name that does not come in the path (`not_inside_atRoot`).
-/

namespace DoxPages.Path

/-! ## Joined paths -/

theorem join_eq (p q : Path) :
    p / q = if q.isAbsolute then q else { p with parts := p.parts ++ q.parts } := rfl

theorem join_assoc (p q r : Path) : p / q / r = p / (q / r) := by
  simp only [join_eq]
  by_cases hr : r.isAbsolute = true
  · simp [hr]
  · by_cases hq : q.isAbsolute = true
    · have hqr : ({ q with parts := q.parts ++ r.parts } : Path).isAbsolute = true := hq
      simp [hr, hq, hqr]
    · have hqr : ¬ ({ q with parts := q.parts ++ r.parts } : Path).isAbsolute = true := hq
      simp [hr, hq, hqr]

theorem join_empty (p : Path) : p / ({} : Path) = p := by
  rw [join_eq, if_neg (by decide), List.append_nil]

/-! ## Going back -/

/-- Components that are followed from `depth` directories down never lead above the start. -/
def descends : (depth : Nat) → List String → Bool
  | _, [] => true
  | depth, c :: cs =>
    if c = ".." then decide (0 < depth) && descends (depth - 1) cs else descends (depth + 1) cs

def StaysBelow (q : Path) : Prop := q.isAbsolute = false ∧ descends 0 q.parts = true

instance (q : Path) : Decidable (StaysBelow q) := inferInstanceAs (Decidable (_ ∧ _))

variable {q : Path} {cs start down : List String}

theorem prefix_of_descends (h : descends down.length cs = true) :
    start <+: cs.foldl enter (start ++ down) := by
  induction cs generalizing down with
  | nil => exact List.prefix_append start down
  | cons c cs ih =>
    rw [descends] at h
    rw [List.foldl_cons, enter]
    split at h
    · rename_i hback
      rw [Bool.and_eq_true, decide_eq_true_eq] at h
      rw [if_pos hback, List.dropLast_append_of_ne_nil (List.ne_nil_of_length_pos h.1)]
      exact ih (by rw [List.length_dropLast]; exact h.2)
    · rename_i hdown
      rw [if_neg hdown, List.append_assoc]
      exact ih (by rw [List.length_append]; exact h)

/-- A name above which the components lead is not come back to. -/
theorem not_mem_of_not_descends {name : String} (h : descends down.length cs = false)
    (hdown : name ∉ down) (hcs : name ∉ cs) : name ∉ cs.foldl enter (name :: down) := by
  induction cs generalizing down with
  | nil => cases h
  | cons c cs ih =>
    rw [List.mem_cons, not_or] at hcs
    rw [descends] at h
    rw [List.foldl_cons, enter]
    split at h
    · rename_i hback
      rw [if_pos hback]
      cases down with
      | nil =>
        -- the name itself is left here
        intro hmem
        rcases mem_foldl_enter hmem with hmem | ⟨hmem, -⟩
        · cases hmem
        · exact hcs.2 hmem
      | cons d down =>
        rw [List.dropLast_cons_of_ne_nil (List.cons_ne_nil d down)]
        refine ih ?_ (fun hmem => hdown (List.dropLast_subset _ hmem)) hcs.2
        rw [List.length_dropLast]
        simpa using h
    · rename_i hne
      rw [if_neg hne, List.cons_append]
      refine ih (by rw [List.length_append]; exact h) (fun hmem => ?_) hcs.2
      rcases List.mem_append.1 hmem with hmem | hmem
      · exact hdown hmem
      · exact hcs.1 (List.mem_singleton.1 hmem)

theorem StaysBelow.inside (h : StaysBelow q) (p : Path) : Inside (p / q) p := by
  rw [Inside, join_eq, h.1, if_neg Bool.false_ne_true, collapse_append]
  have hprefix : collapse p.parts <+: q.parts.foldl enter (collapse p.parts ++ []) :=
    prefix_of_descends h.2
  rwa [List.append_nil] at hprefix

def atRoot (name : String) : Path := ⟨1, [name]⟩

theorem collapse_atRoot {name : String} (h : name ≠ "..") : collapse (atRoot name).parts = [name] :=
  if_neg h

theorem resolve_atRoot {name : String} (h : name ≠ "..") (here : Path) :
    here.resolve (atRoot name) = atRoot name := congrArg (Path.mk 1) (collapse_atRoot h)

/-- A path that does not stay leads out of a directory whose name does not come in it. -/
theorem not_inside_atRoot {name : String} (h : ¬ StaysBelow q) (hname : name ∉ q.parts)
    (hdots : name ≠ "..") : ¬ Inside (atRoot name / q) (atRoot name) := by
  intro hinside
  rw [Inside, collapse_atRoot hdots] at hinside
  have hmem : name ∈ collapse (atRoot name / q).parts := hinside.subset List.mem_cons_self
  rw [join_eq] at hmem
  split at hmem
  · exact hname (mem_collapse hmem).1
  · rename_i hrelative
    rw [collapse_append, collapse_atRoot hdots] at hmem
    refine not_mem_of_not_descends ?_ List.not_mem_nil hname hmem
    rw [← Bool.not_eq_true]
    exact fun hdescends => h ⟨Bool.eq_false_iff.2 hrelative, hdescends⟩

theorem exists_other_name (names : List String) : ∃ name : String, name ∉ names := by
  obtain ⟨name, hname⟩ := Infinite.exists_notMem_finset names.toFinset
  exact ⟨name, fun hmem => hname (List.mem_toFinset.2 hmem)⟩

end DoxPages.Path
