import DoxPages.Config.Merge
import Mathlib.Data.List.Induction

/-!
# Layers of settings

Keys of settings are the same if they are equal as numbers, so tables are told here by
look-ups under an equivalence. `Distinct` says that a mapping has no key twice, nor has
any mapping that stands directly in it. Under one key a merged table holds the `stack` of
what its layers hold there: mappings on one another are merged, and anything else hides
what is below it.
-/

namespace DoxPages

/-! ## Tables -/

namespace Assoc

variable {α β : Type} [BEq α]

def Distinct (t : List (α × β)) : Prop := t.Pairwise fun d e => (d.1 == e.1) = false

instance (t : List (α × β)) : Decidable (Distinct t) :=
  inferInstanceAs (Decidable (List.Pairwise ..))

theorem distinct_nil : Distinct ([] : List (α × β)) := List.Pairwise.nil

theorem distinct_cons {e : α × β} {t : List (α × β)} :
    Distinct (e :: t) ↔ (∀ d ∈ t, (e.1 == d.1) = false) ∧ Distinct t := List.pairwise_cons

theorem mem_put {k : α} {v : β} {t : List (α × β)} {e : α × β} (h : e ∈ put k v t) :
    e ∈ t ∨ e.2 = v ∧ (e.1 = k ∨ e.1 ∈ t.map Prod.fst) := by
  induction t with
  | nil =>
    obtain rfl := List.mem_singleton.1 h
    exact .inr ⟨rfl, .inl rfl⟩
  | cons d t ih =>
    rw [put] at h
    split at h
    · rcases List.mem_cons.1 h with rfl | h
      · exact .inr ⟨rfl, .inr List.mem_cons_self⟩
      · exact .inl (List.mem_cons_of_mem _ h)
    · rcases List.mem_cons.1 h with rfl | h
      · exact .inl List.mem_cons_self
      · rcases ih h with h | ⟨hv, rfl | hk⟩
        · exact .inl (List.mem_cons_of_mem _ h)
        · exact .inr ⟨hv, .inl rfl⟩
        · exact .inr ⟨hv, .inr (List.mem_cons_of_mem _ hk)⟩

/-- A key that is there keeps its place and its spelling, any other comes last. -/
theorem keys_put (k : α) (v : β) (t : List (α × β)) :
    (put k v t).map Prod.fst = t.map Prod.fst ++ if hasKey k t then [] else [k] := by
  induction t with
  | nil => rfl
  | cons e t ih =>
    obtain ⟨j, w⟩ := e
    rw [put, hasKey, List.lookup_cons]
    cases hk : k == j with
    | true => simp
    | false =>
      rw [if_neg Bool.false_ne_true, List.map_cons, ih, List.map_cons, List.cons_append]
      rfl

theorem put_of_lookup {k : α} {v : β} {t : List (α × β)} (h : t.lookup k = some v) :
    put k v t = t := by
  induction t with
  | nil => cases h
  | cons e t ih =>
    obtain ⟨j, w⟩ := e
    rw [List.lookup_cons] at h
    rw [put]
    cases hk : k == j with
    | true =>
      rw [hk] at h
      obtain rfl := Option.some.inj h
      rfl
    | false =>
      rw [hk] at h
      rw [if_neg Bool.false_ne_true, ih h]

theorem lookup_eq_none_of_forall {k : α} {t : List (α × β)}
    (h : ∀ e ∈ t, (k == e.1) = false) : t.lookup k = none := by
  rw [List.lookup_eq_none_iff]
  intro e he
  rw [bne, h e he]
  rfl

theorem exists_mem_of_lookup {k : α} {v : β} {t : List (α × β)} (h : t.lookup k = some v) :
    ∃ e ∈ t, (k == e.1) = true ∧ e.2 = v := by
  induction t with
  | nil => cases h
  | cons e t ih =>
    rw [List.lookup_cons] at h
    split at h
    · exact ⟨e, List.mem_cons_self, ‹_›, Option.some.inj h⟩
    · obtain ⟨d, hd, heq⟩ := ih h
      exact ⟨d, List.mem_cons_of_mem _ hd, heq⟩

variable [EquivBEq α]

theorem lookup_congr {j k : α} (h : (j == k) = true) (t : List (α × β)) :
    t.lookup j = t.lookup k := by
  induction t with
  | nil => rfl
  | cons e t ih =>
    obtain ⟨i, w⟩ := e
    rw [List.lookup_cons, List.lookup_cons, ih, BEq.congr_left h]

theorem lookup_put (j k : α) (v : β) (t : List (α × β)) :
    (put k v t).lookup j = if j == k then some v else t.lookup j := by
  induction t with
  | nil =>
    rw [put, List.lookup_cons, List.lookup_nil]
    split <;> simp [*]
  | cons e t ih =>
    obtain ⟨i, w⟩ := e
    rw [put]
    split
    · rename_i hk
      rw [List.lookup_cons, List.lookup_cons, BEq.congr_right (a := j) hk]
      split <;> simp [*]
    · rename_i hk
      rw [List.lookup_cons, List.lookup_cons, ih]
      split
      · rename_i hi
        have hne : (j == k) = false := by
          rw [Bool.eq_false_iff]
          exact fun hj => hk (BEq.trans (BEq.symm hj) hi)
        rw [hne]
        rfl
      · rfl

theorem hasKey_put (j k : α) (v : β) (t : List (α × β)) :
    hasKey j (put k v t) = (j == k || hasKey j t) := by
  rw [hasKey, lookup_put, hasKey]
  cases j == k <;> rfl

theorem lookup_of_mem_distinct {t : List (α × β)} (ht : Distinct t) {e : α × β} (he : e ∈ t) :
    t.lookup e.1 = some e.2 := by
  induction t with
  | nil => cases he
  | cons d t ih =>
    obtain ⟨j, w⟩ := d
    obtain ⟨hj, ht⟩ := distinct_cons.1 ht
    rw [List.lookup_cons]
    rcases List.mem_cons.1 he with rfl | he
    · rw [BEq.refl]
    · rw [BEq.comm, hj e he]
      exact ih ht he

theorem distinct_put {t : List (α × β)} (h : Distinct t) (k : α) (v : β) :
    Distinct (put k v t) := by
  induction t with
  | nil => exact List.pairwise_singleton _ _
  | cons e t ih =>
    rw [distinct_cons] at h
    rw [put]
    split
    · exact distinct_cons.2 h
    · rename_i hk
      refine distinct_cons.2 ⟨fun d hd => ?_, ih h.2⟩
      rcases mem_put hd with hd | ⟨-, rfl | hd⟩
      · exact h.1 d hd
      · rw [BEq.comm, Bool.eq_false_iff]
        exact hk
      · obtain ⟨d', hd', heq⟩ := List.mem_map.1 hd
        rw [← heq]
        exact h.1 d' hd'

end Assoc

/-! ## Distinct keys -/

/-- No mapping that layering looks into has a key twice. -/
inductive Value.Distinct : Value → Prop where
  | mapping {es : List (Scalar × Value)} (keys : Assoc.Distinct es)
      (values : ∀ e ∈ es, e.2.Distinct) : (Value.mapping es).Distinct
  | other {v : Value} (h : ∀ es, v ≠ .mapping es) : v.Distinct

namespace Value.Distinct

variable {es : List (Scalar × Value)}

theorem keys (h : (Value.mapping es).Distinct) : Assoc.Distinct es := by
  cases h with
  | mapping hkeys _ => exact hkeys
  | other h => exact absurd rfl (h es)

theorem values (h : (Value.mapping es).Distinct) {e : Scalar × Value} (he : e ∈ es) :
    e.2.Distinct := by
  cases h with
  | mapping _ hvalues => exact hvalues e he
  | other h => exact absurd rfl (h es)

end Value.Distinct

/-! ## Stacks of values -/

namespace Value

/-- Values laid over one another, the lowest first. -/
def stack : List Value → Option Value
  | [] => none
  | v :: vs => some (vs.foldl Value.over v)

theorem stack_concat (vs : List Value) (v : Value) :
    stack (vs ++ [v]) = stack ((stack vs).toList ++ [v]) := by
  cases vs with
  | nil => rfl
  | cons w ws => simp [stack]

theorem over_eq_self {v : Value} (h : ∀ es, v ≠ .mapping es) (lower : Value) :
    lower.over v = v := by
  cases v with
  | mapping es => exact absurd rfl (h es)
  | _ => rw [Value.over]; simp

/-- What is no mapping hides all that is below it. -/
theorem stack_eq_getLast? {vs : List Value} (h : ∀ v ∈ vs, ∀ es, v ≠ .mapping es) :
    stack vs = vs.getLast? := by
  induction vs using List.reverseRecOn with
  | nil => rfl
  | append_singleton vs v _ =>
    have hv := over_eq_self (h v (by simp))
    rw [stack_concat, List.getLast?_concat]
    cases stack vs with
    | none => rfl
    | some w => exact congrArg some (hv w)

end Value

/-! ## Merging -/

namespace Settings

variable {lower upper : List (Scalar × Value)}

theorem merge_cons (lower : List (Scalar × Value)) (k : Scalar) (v : Value)
    (upper : List (Scalar × Value)) : merge lower ((k, v) :: upper) =
      merge (Assoc.put k (((lower.lookup k).map (·.over v)).getD v) lower) upper := by
  rw [merge]
  cases lower.lookup k <;> rfl

theorem lookup_merge (h : Assoc.Distinct upper) (lower : List (Scalar × Value)) (k : Scalar) :
    (merge lower upper).lookup k =
      Value.stack ((lower.lookup k).toList ++ (upper.lookup k).toList) := by
  induction upper generalizing lower with
  | nil =>
    rw [merge]
    cases lower.lookup k <;> rfl
  | cons e upper ih =>
    obtain ⟨j, v⟩ := e
    obtain ⟨hj, h⟩ := Assoc.distinct_cons.1 h
    rw [merge_cons, ih h, Assoc.lookup_put, List.lookup_cons]
    cases hk : k == j with
    | false => rfl
    | true =>
      have hnone : upper.lookup k = none :=
        Assoc.lookup_eq_none_of_forall fun e he => by rw [BEq.congr_left hk]; exact hj e he
      rw [hnone, Assoc.lookup_congr hk]
      cases lower.lookup j <;> rfl

theorem lookup_merge_of_stack {vs : List Value} {k : Scalar} (h : Assoc.Distinct upper)
    (hlower : lower.lookup k = Value.stack vs) :
    (merge lower upper).lookup k = Value.stack (vs ++ (upper.lookup k).toList) := by
  rw [lookup_merge h, hlower]
  cases upper.lookup k with
  | none =>
    rw [Option.toList_none, List.append_nil, List.append_nil]
    cases Value.stack vs <;> rfl
  | some v => exact (Value.stack_concat vs v).symm

theorem key_of_mem_merge {P : Scalar → Prop} (hlower : ∀ e ∈ lower, P e.1)
    (hupper : ∀ e ∈ upper, P e.1) : ∀ e ∈ merge lower upper, P e.1 := by
  induction upper generalizing lower with
  | nil =>
    rw [merge]
    exact hlower
  | cons e upper ih =>
    obtain ⟨k, v⟩ := e
    rw [merge_cons]
    refine ih (fun d hd => ?_) fun d hd => hupper d (List.mem_cons_of_mem _ hd)
    rcases Assoc.mem_put hd with hd | ⟨-, hd | hd⟩
    · exact hlower d hd
    · rw [hd]
      exact hupper (k, v) List.mem_cons_self
    · obtain ⟨d', hd', heq⟩ := List.mem_map.1 hd
      rw [← heq]
      exact hlower d' hd'

theorem value_of_mem_merge {P : Value → Prop} (hover : ∀ v w, P v → P w → P (v.over w))
    (hlower : ∀ e ∈ lower, P e.2) (hupper : ∀ e ∈ upper, P e.2) :
    ∀ e ∈ merge lower upper, P e.2 := by
  induction upper generalizing lower with
  | nil =>
    rw [merge]
    exact hlower
  | cons e upper ih =>
    obtain ⟨k, v⟩ := e
    have hv : P v := hupper (k, v) List.mem_cons_self
    rw [merge_cons]
    refine ih (fun d hd => ?_) fun d hd => hupper d (List.mem_cons_of_mem _ hd)
    rcases Assoc.mem_put hd with hd | ⟨hd, -⟩
    · exact hlower d hd
    · rw [hd]
      cases hold : lower.lookup k with
      | none => exact hv
      | some old =>
        obtain ⟨d', hd', -, rfl⟩ := Assoc.exists_mem_of_lookup hold
        exact hover d'.2 v (hlower d' hd') hv

end Settings

end DoxPages
