import DoxPages.Conversion.Pages
import DoxPages.Proofs.Files.Names

/-!
# Steps that end

`Ends m s a s'` says that a step started in session `s` ends with the value `a` in
session `s'`. For each step there is what its end says: what was written, that it
could be written, and that nothing else changed.
-/

namespace DoxPages.Run

variable {ε α β : Type} {s s' : Session} {here : Location}

def outcome (m : ExceptT ε (StateM Session) α) (s : Session) : Except ε α × Session :=
  (m.run.run s).run

def Ends (m : ExceptT ε (StateM Session) α) (s : Session) (a : α) (s' : Session) : Prop :=
  outcome m s = (.ok a, s')

section
variable {m : ExceptT ε (StateM Session) α} {f : α → ExceptT ε (StateM Session) β}

theorem outcome_bind (m : ExceptT ε (StateM Session) α) (f : α → ExceptT ε (StateM Session) β)
    (s : Session) :
    outcome (m >>= f) s = match outcome m s with
      | (.ok a, s₁) => outcome (f a) s₁
      | (.error e, s₁) => (.error e, s₁) := by
  unfold outcome
  rw [ExceptT.run_bind, StateT.run_bind, Id.run_bind]
  cases (m.run.run s).run with
  | mk r s₁ => cases r <;> rfl

theorem outcome_get (s : Session) :
    outcome (get : ExceptT ε (StateM Session) Session) s = (.ok s, s) := rfl

theorem outcome_modify (f : Session → Session) (s : Session) :
    outcome (modify f : ExceptT ε (StateM Session) Unit) s = (.ok (), f s) := rfl

theorem ends_bind {b : β} :
    Ends (m >>= f) s b s' ↔ ∃ a s₁, Ends m s a s₁ ∧ Ends (f a) s₁ b s' := by
  unfold Ends
  rw [outcome_bind]
  cases outcome m s with
  | mk r s₁ =>
    cases r with
    | ok a =>
      simp only [Prod.mk.injEq, Except.ok.injEq]
      constructor
      · exact fun h => ⟨a, s₁, ⟨rfl, rfl⟩, h⟩
      · rintro ⟨_, _, ⟨rfl, rfl⟩, h⟩
        exact h
    | error e => simp

theorem ends_pure {a b : α} :
    Ends (pure a : ExceptT ε (StateM Session) α) s b s' ↔ a = b ∧ s = s' := by
  show (Except.ok a, s) = (Except.ok b, s') ↔ _
  simp

theorem ends_get {t : Session} :
    Ends (get : ExceptT ε (StateM Session) Session) s t s' ↔ s = t ∧ s = s' := by
  show (Except.ok s, s) = (Except.ok t, s') ↔ _
  simp

theorem ends_modify {f : Session → Session} {u : Unit} :
    Ends (modify f : ExceptT ε (StateM Session) Unit) s u s' ↔ s' = f s := by
  show (Except.ok (), f s) = (Except.ok u, s') ↔ _
  simp [eq_comm]

theorem not_ends_throw {e : ε} {a : α} :
    ¬ Ends (throw e : ExceptT ε (StateM Session) α) s a s' := by
  show ¬ (Except.error e, s) = (Except.ok a, s')
  simp

theorem ends_of_toOption {a : α} (h : (outcome m s).1.toOption = some a) :
    Ends m s a (outcome m s).2 := by
  cases hm : (outcome m s).1 with
  | error e =>
    rw [hm] at h
    cases h
  | ok b =>
    rw [hm] at h
    obtain rfl : b = a := Option.some.inj h
    exact Prod.ext hm rfl

end

/-! ## Steps that leave the files alone -/

theorem tree_report {e : Event} {u : Unit} (h : Ends (report e) s u s') : s'.tree = s.tree := by
  rw [ends_modify.1 h]

theorem tree_reports {event : α → Event} {as : List α} {u : Unit}
    (h : Ends (as.forM fun a => report (event a)) s u s') : s'.tree = s.tree := by
  induction as generalizing s with
  | nil =>
    obtain ⟨-, rfl⟩ := ends_pure.1 h
    rfl
  | cons a as ih =>
    obtain ⟨_, s₁, hreport, h⟩ := ends_bind.1 h
    exact (ih h).trans (tree_report hreport)

theorem tree_print {line : String} {u : Unit} (h : Ends (print line) s u s') :
    s'.tree = s.tree := by
  rw [ends_modify.1 h]

theorem outcome_take (r : Reported α) (s : Session) :
    outcome (take r) s = match r.stopped with
      | none => (.ok r.value, { s with log := s.log ++ r.log })
      | some log => (.error (.crash .overflow), { s with log := s.log ++ log }) := by
  unfold take
  cases r.stopped <;> rfl

theorem take_spec {r : Reported α} {a : α} (h : Ends (take r) s a s') :
    r.stopped = none ∧ a = r.value ∧ s'.tree = s.tree := by
  rw [Ends, outcome_take] at h
  cases hstopped : r.stopped with
  | some log =>
    rw [hstopped] at h
    cases h
  | none =>
    rw [hstopped] at h
    obtain ⟨ha, rfl⟩ := Prod.mk.inj h
    exact ⟨rfl, (Except.ok.inj ha).symm, rfl⟩

theorem orFail_spec {f : α → Failure} {r : Except α β} {b : β} (h : Ends (orFail f r) s b s') :
    r = .ok b ∧ s' = s := by
  cases r with
  | error a => exact absurd h not_ends_throw
  | ok b' =>
    obtain ⟨rfl, rfl⟩ := ends_pure.1 h
    exact ⟨rfl, rfl⟩

/-! ## Directories and files -/

theorem makeDirs_eq {p : Path} {u : Unit} (h : Ends (makeDirs here p) s u s') :
    s.tree.makeDirs (Tree.start here p) p.parts = (s'.tree, true) := by
  obtain ⟨_, _, hget, h⟩ := ends_bind.1 h
  obtain ⟨rfl, rfl⟩ := ends_get.1 hget
  show s.tree.makeDirs (if p.isAbsolute then [] else here) p.parts = _
  cases hmade : s.tree.makeDirs (if p.isAbsolute then [] else here) p.parts with
  | mk t made =>
    rw [hmade] at h
    obtain ⟨_, _, hset, h⟩ := ends_bind.1 h
    cases made with
    | false => exact absurd h not_ends_throw
    | true =>
      obtain ⟨-, rfl⟩ := ends_pure.1 h
      rw [ends_modify.1 hset]

theorem makeDirs_spec {p : Path} {u : Unit} (h : Ends (makeDirs here p) s u s') :
    s.tree.Grows s'.tree ∧ s'.tree.HasDir here p := by
  have hspec := s.tree.makeDirs_spec (Tree.start here p) p.parts
  rw [makeDirs_eq h] at hspec
  exact ⟨hspec.1, hspec.2 rfl⟩

theorem makeDirs_of_hasDir {p : Path} {u : Unit} (h : Ends (makeDirs here p) s u s')
    (hdir : s.tree.HasDir here p) : s'.tree = s.tree := by
  obtain ⟨l, hl, hd⟩ := hdir
  have hmade := makeDirs_eq h
  rw [Tree.makeDirs_of_isDir hl hd] at hmade
  exact (congrArg Prod.fst hmade).symm

theorem write_spec {p : Path} {text : String} {u : Unit} (h : Ends (write here p text) s u s') :
    Tree.Wrote here [(p, text)] s.tree s'.tree := by
  obtain ⟨_, _, hget, h⟩ := ends_bind.1 h
  obtain ⟨rfl, rfl⟩ := ends_get.1 hget
  cases hwrite : s.tree.write? here p text with
  | none =>
    rw [hwrite] at h
    exact absurd h not_ends_throw
  | some t =>
    rw [hwrite] at h
    rw [ends_modify.1 h]
    exact Tree.wrote_write? hwrite

theorem copy_spec {source target : Path} {u : Unit} (h : Ends (copy here source target) s u s') :
    s.tree.locate? here source ≠ s.tree.locate? here target ∧
      ∃ text, s.tree.read? here source = some text ∧
        Tree.Wrote here [(target, text)] s.tree s'.tree := by
  obtain ⟨_, _, hget, h⟩ := ends_bind.1 h
  obtain ⟨rfl, rfl⟩ := ends_get.1 hget
  cases hread : s.tree.read? here source with
  | none =>
    simp only [hread] at h
    exact absurd h not_ends_throw
  | some text =>
    simp only [hread] at h
    split at h
    · obtain ⟨_, _, hthrow, -⟩ := ends_bind.1 h
      exact absurd hthrow not_ends_throw
    · rename_i hne
      exact ⟨hne, text, rfl, write_spec h⟩

end DoxPages.Run
