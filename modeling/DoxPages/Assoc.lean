/-!
# Insertion-ordered tables

A table is a list of keys and values in which a look-up takes the first entry of
a key. `put` writes over the entry of a key in its place, or adds one at the end:
keys keep the order in which they first came.
-/

namespace DoxPages.Assoc

variable {α β : Type} [BEq α]

def put (k : α) (v : β) : List (α × β) → List (α × β)
  | [] => [(k, v)]
  | e :: es => if k == e.1 then (e.1, v) :: es else e :: put k v es

/-- Puts the entries of the second table into the first, in order. -/
def putAll (t u : List (α × β)) : List (α × β) := u.foldl (fun t e => put e.1 e.2 t) t

def hasKey (k : α) (t : List (α × β)) : Bool := (t.lookup k).isSome

/-- Changes the value of a key that is there. -/
def adjust (k : α) (f : β → β) (t : List (α × β)) : List (α × β) :=
  t.map fun e => if k == e.1 then (e.1, f e.2) else e

theorem mem_of_lookup [LawfulBEq α] {k : α} {v : β} {t : List (α × β)}
    (h : t.lookup k = some v) : (k, v) ∈ t := by
  obtain ⟨l, r, rfl, -⟩ := List.lookup_eq_some_iff.1 h
  simp

theorem lookup_put_self [LawfulBEq α] (k : α) (v : β) (t : List (α × β)) :
    (put k v t).lookup k = some v := by
  induction t with
  | nil => simp [put]
  | cons e es ih =>
    obtain ⟨j, w⟩ := e
    by_cases h : k = j
    · subst h; simp [put]
    · have hk : (k == j) = false := by simpa using h
      simp [put, List.lookup_cons, hk, ih]

theorem lookup_put_of_ne [LawfulBEq α] {k j : α} (h : j ≠ k) (v : β) (t : List (α × β)) :
    (put k v t).lookup j = t.lookup j := by
  have hj : (j == k) = false := by simpa using h
  induction t with
  | nil => simp [put, List.lookup_cons, hj]
  | cons e es ih =>
    obtain ⟨i, w⟩ := e
    by_cases hk : k = i
    · subst hk; simp [put, List.lookup_cons, hj]
    · have hk : (k == i) = false := by simpa using hk
      cases hi : j == i <;> simp [put, List.lookup_cons, hk, hi, ih]

theorem keys_put_of_mem [LawfulBEq α] {k : α} {v : β} {t : List (α × β)}
    (h : k ∈ t.map Prod.fst) : (put k v t).map Prod.fst = t.map Prod.fst := by
  induction t with
  | nil => simp at h
  | cons e es ih =>
    unfold put
    split
    · simp
    · rename_i hk
      have hne : k ≠ e.1 := by simpa using hk
      simp only [List.map_cons, List.mem_cons, hne, false_or] at h
      simp [ih h]

theorem keys_put_of_not_mem [LawfulBEq α] {k : α} {v : β} {t : List (α × β)}
    (h : k ∉ t.map Prod.fst) : (put k v t).map Prod.fst = t.map Prod.fst ++ [k] := by
  induction t with
  | nil => simp [put]
  | cons e es ih =>
    simp only [List.map_cons, List.mem_cons, not_or] at h
    simp [put, h.1, ih h.2]

theorem put_put [LawfulBEq α] (k : α) (v w : β) (t : List (α × β)) :
    put k w (put k v t) = put k w t := by
  induction t with
  | nil => simp [put]
  | cons e es ih =>
    by_cases h : k == e.1
    · simp [put, h]
    · simp [put, h, ih]

/-! ## Keys -/

theorem lookup_eq_none_iff_keys [LawfulBEq α] {k : α} {t : List (α × β)} :
    t.lookup k = none ↔ k ∉ t.map Prod.fst := by
  rw [List.lookup_eq_none_iff, List.mem_map]
  constructor
  · rintro h ⟨e, he, rfl⟩
    simpa using h e he
  · intro h e he
    rw [bne_iff_ne]
    rintro rfl
    exact h ⟨e, he, rfl⟩

theorem exists_lookup_iff_keys [LawfulBEq α] {k : α} {t : List (α × β)} :
    (∃ v, t.lookup k = some v) ↔ k ∈ t.map Prod.fst := by
  rw [← Option.isSome_iff_exists, Option.isSome_iff_ne_none, ne_eq, lookup_eq_none_iff_keys,
    Classical.not_not]

theorem hasKey_iff [LawfulBEq α] {k : α} {t : List (α × β)} :
    hasKey k t = true ↔ k ∈ t.map Prod.fst := by
  rw [hasKey, Option.isSome_iff_exists, exists_lookup_iff_keys]

theorem mem_keys_put [LawfulBEq α] {j k : α} {v : β} {t : List (α × β)} :
    j ∈ (put k v t).map Prod.fst ↔ j = k ∨ j ∈ t.map Prod.fst := by
  by_cases h : k ∈ t.map Prod.fst
  · rw [keys_put_of_mem h]
    constructor
    · exact .inr
    · rintro (rfl | hj)
      · exact h
      · exact hj
  · rw [keys_put_of_not_mem h, List.mem_append, List.mem_singleton, or_comm]

theorem lookup_of_mem [LawfulBEq α] {k : α} {v : β} {t : List (α × β)}
    (hnd : (t.map Prod.fst).Nodup) (h : (k, v) ∈ t) : t.lookup k = some v := by
  induction t with
  | nil => cases h
  | cons e es ih =>
    rw [List.map_cons, List.nodup_cons] at hnd
    rcases List.mem_cons.1 h with rfl | h
    · simp
    · have hk : (k == e.1) = false := by
        rw [beq_eq_false_iff_ne]
        rintro rfl
        exact hnd.1 (List.mem_map.2 ⟨_, h, rfl⟩)
      rw [List.lookup_cons, hk]
      exact ih hnd.2 h

/-- If no key comes twice, the order of entries does not matter. -/
theorem lookup_eq_of_perm [LawfulBEq α] {t u : List (α × β)} (h : t.Perm u)
    (hnd : (t.map Prod.fst).Nodup) (k : α) : t.lookup k = u.lookup k := by
  have hnd' : (u.map Prod.fst).Nodup := (h.map _).nodup_iff.1 hnd
  cases hu : u.lookup k with
  | none =>
    rw [lookup_eq_none_iff_keys] at *
    exact fun hk => hu ((h.map _).mem_iff.1 hk)
  | some v => exact lookup_of_mem hnd (h.mem_iff.2 (mem_of_lookup hu))

/-- Keeping entries by their keys keeps the value of a key or drops it. -/
theorem lookup_filter {p : α → Bool} {k : α} (hp : ∀ j, (k == j) = true → p j = p k)
    (t : List (α × β)) :
    (t.filter fun e => p e.1).lookup k = if p k = true then t.lookup k else none := by
  induction t with
  | nil => split <;> rfl
  | cons e es ih =>
    obtain ⟨j, v⟩ := e
    rw [List.lookup_cons, List.filter_cons]
    cases hk : k == j with
    | true =>
      rw [hp j hk]
      split
      · rw [List.lookup_cons, hk]
      · rw [ih, if_neg ‹_›]
    | false =>
      split
      · rw [List.lookup_cons, hk]
        exact ih
      · exact ih

/-! ## Changing values -/

@[simp] theorem keys_adjust (k : α) (f : β → β) (t : List (α × β)) :
    (adjust k f t).map Prod.fst = t.map Prod.fst := by
  rw [adjust, List.map_map]
  refine List.map_congr_left fun e _ => ?_
  simp only [Function.comp_apply]
  split <;> rfl

theorem adjust_append (k : α) (f : β → β) (t u : List (α × β)) :
    adjust k f (t ++ u) = adjust k f t ++ adjust k f u := List.map_append ..

theorem adjust_of_not_mem [LawfulBEq α] {k : α} {t : List (α × β)} (h : k ∉ t.map Prod.fst)
    (f : β → β) : adjust k f t = t := by
  rw [adjust]
  conv => rhs; rw [← List.map_id t]
  refine List.map_congr_left fun e he => if_neg fun hk => h ?_
  rw [eq_of_beq hk]
  exact List.mem_map_of_mem he

theorem lookup_adjust_self [LawfulBEq α] (k : α) (f : β → β) (t : List (α × β)) :
    (adjust k f t).lookup k = (t.lookup k).map f := by
  induction t with
  | nil => rfl
  | cons e es ih =>
    obtain ⟨j, w⟩ := e
    rw [adjust, List.map_cons, ← adjust]
    by_cases h : k = j
    · subst h
      simp
    · have hk : (k == j) = false := by simpa using h
      simp [List.lookup_cons, hk, ih]

theorem lookup_adjust_of_ne [LawfulBEq α] {k j : α} (h : j ≠ k) (f : β → β) (t : List (α × β)) :
    (adjust k f t).lookup j = t.lookup j := by
  induction t with
  | nil => rfl
  | cons e es ih =>
    obtain ⟨i, w⟩ := e
    rw [adjust, List.map_cons, ← adjust]
    by_cases hk : k = i
    · subst hk
      have hj : (j == k) = false := by simpa using h
      simp [List.lookup_cons, hj, ih]
    · have hk : (k == i) = false := by simpa using hk
      simp [List.lookup_cons, hk, ih]

/-! ## Putting many entries -/

/-- The last entry of a key counts. -/
theorem lookup_putAll [LawfulBEq α] (k : α) (t u : List (α × β)) :
    (putAll t u).lookup k = (u.reverse.lookup k).or (t.lookup k) := by
  induction u generalizing t with
  | nil => rfl
  | cons e es ih =>
    obtain ⟨j, w⟩ := e
    rw [show putAll t ((j, w) :: es) = putAll (put j w t) es from rfl, ih, List.reverse_cons,
      List.lookup_append, Option.or_assoc]
    congr 1
    by_cases h : k = j
    · subst h
      simp [lookup_put_self]
    · rw [lookup_put_of_ne h]
      have hk : (k == j) = false := by simpa using h
      simp [List.lookup_cons, hk]

theorem mem_keys_putAll [LawfulBEq α] {k : α} {t u : List (α × β)} :
    k ∈ (putAll t u).map Prod.fst ↔ k ∈ t.map Prod.fst ∨ k ∈ u.map Prod.fst := by
  induction u generalizing t with
  | nil => simp [putAll]
  | cons e es ih =>
    rw [show putAll t (e :: es) = putAll (put e.1 e.2 t) es from rfl, ih, mem_keys_put,
      List.map_cons, List.mem_cons, or_assoc, or_left_comm]

end DoxPages.Assoc
