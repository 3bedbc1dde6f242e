import DoxPages.Proofs.Config.Shapes
import Mathlib.Data.List.Perm.Basic

/-!
# Problems entry by entry

A check of settings is `Entrywise` if it finds in settings what it finds in each of their
entries on its own. Looking up one name is, and so is every list of such checks, so the
problems of settings are the problems of their entries.
-/

namespace DoxPages

namespace Settings

/-! ## Checks that go by entries -/

/-- What a check finds in settings it finds in their entries, each on its own. -/
structure Entrywise {β : Type} (check : Settings → List β) : Prop where
  nil : check [] = []
  cons : ∀ e s, Assoc.Distinct (e :: s) → (check (e :: s)).Perm (check [e] ++ check s)

namespace Entrywise

variable {β γ : Type} {check check' : Settings → List β}

theorem perm (h : Entrywise check) {s : Settings} (hs : Assoc.Distinct s) :
    (check s).Perm (s.flatMap fun e => check [e]) := by
  induction s with
  | nil => rw [h.nil, List.flatMap_nil]
  | cons e s ih => exact (h.cons e s hs).trans ((ih (Assoc.distinct_cons.1 hs).2).append_left _)

theorem append (h : Entrywise check) (h' : Entrywise check') :
    Entrywise fun s => check s ++ check' s where
  nil := by rw [h.nil, h'.nil, List.append_nil]
  cons e s hs := by
    refine ((h.cons e s hs).append (h'.cons e s hs)).trans ?_
    rw [List.append_assoc, List.append_assoc]
    refine List.Perm.append_left _ ?_
    rw [← List.append_assoc, ← List.append_assoc]
    exact List.perm_append_comm.append_right _

theorem map (h : Entrywise check) (f : β → γ) : Entrywise fun s => (check s).map f where
  nil := by rw [h.nil, List.map_nil]
  cons e s hs := by
    rw [← List.map_append]
    exact (h.cons e s hs).map f

theorem flatMap {check : String → Settings → List β} (h : ∀ name, Entrywise (check name))
    (names : List String) : Entrywise fun s => names.flatMap fun name => check name s := by
  induction names with
  | nil => exact ⟨rfl, fun _ _ _ => .refl _⟩
  | cons name names ih => exact (h name).append ih

end Entrywise

section
variable {β : Type}

theorem entrywise_unknown (names : List String) (problem : Scalar × Value → β) :
    Entrywise fun s => (s.filter fun e => !isOneOf names e.1).map problem where
  nil := rfl
  cons e s _ := by
    rw [← List.map_append, ← List.filter_append]
    rfl

/-- A name is looked up in the one entry that has it. -/
theorem entrywise_get? (found : Option Value → List β) (h : found none = []) (name : String) :
    Entrywise fun s => found (get? s name) where
  nil := h
  cons e s hs := by
    obtain ⟨k, v⟩ := e
    simp only [get?, List.lookup_cons, List.lookup_nil]
    cases hk : Scalar.string name == k with
    | false => simp only [h, List.nil_append, List.Perm.refl]
    | true =>
      have hnone : s.lookup (.string name) = none :=
        Assoc.lookup_eq_none_of_forall fun d hd => by
          rw [BEq.congr_left hk]
          exact (Assoc.distinct_cons.1 hs).1 d hd
      simp only [hnone, h, List.append_nil, List.Perm.refl]

theorem entrywise_checkFields (check : String → Value → List SettingProblem)
    (fields : List String) : Entrywise fun s => checkFields s check fields :=
  Entrywise.flatMap (fun field => entrywise_get? (ifGiven (check field)) rfl field) fields

end

theorem entrywise_problems : Entrywise problems :=
  (((((entrywise_unknown knownFields _).append (entrywise_checkFields _ _)).append
    (entrywise_checkFields _ _)).append (entrywise_checkFields _ _)).append
    (entrywise_get? (ifNotNull checkAliases) rfl _)).append (entrywise_checkFields _ _)

def messages (s : Settings) : List String := (problems s).map SettingProblem.message

theorem entrywise_messages : Entrywise messages := entrywise_problems.map _

end Settings

end DoxPages
