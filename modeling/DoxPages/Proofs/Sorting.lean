/-!
# Sorting by keys

What a stable sort by a whole number gives, and when the order of the input does
not matter: if no two elements of the list tie. A minimum never depends on the
order, and what only one element has picks that element.
-/

namespace DoxPages

variable {α : Type}

/-- `ys` is `xs` in ascending order of a key; ties keep their order. -/
structure StablySorted (key : α → Int) (xs ys : List α) : Prop where
  perm : ys.Perm xs
  ascending : ys.Pairwise fun a b => key a ≤ key b
  stable : ∀ n, ys.filter (fun a => key a = n) = xs.filter fun a => key a = n

abbrev keyLe (key : α → Int) (a b : α) : Bool := decide (key a ≤ key b)

theorem keyLe_trans (key : α → Int) (a b c : α) (hab : keyLe key a b = true)
    (hbc : keyLe key b c = true) : keyLe key a c = true := by
  simp only [keyLe, decide_eq_true_eq] at *
  omega

theorem keyLe_total (key : α → Int) (a b : α) : (keyLe key a b || keyLe key b a) = true := by
  simp only [keyLe, Bool.or_eq_true, decide_eq_true_eq]
  omega

section
variable {le : α → α → Bool} (trans : ∀ a b c, le a b = true → le b c = true → le a c = true)
  (total : ∀ a b, (le a b || le b a) = true)
include trans total

/-- Elements that tie stand in a sorted list as they came. -/
theorem filter_mergeSort {p : α → Bool} (htie : ∀ a b, p a = true → p b = true → le a b = true)
    (xs : List α) : (xs.mergeSort le).filter p = xs.filter p := by
  -- the elements of one kind are in order already, so the sort keeps them as they stand
  have hordered : (xs.filter p).Pairwise fun a b => le a b = true :=
    List.pairwise_of_forall_mem_list fun a ha b hb =>
      htie a b (List.mem_filter.1 ha).2 (List.mem_filter.1 hb).2
  have hsub := (List.sublist_mergeSort trans total hordered List.filter_sublist).filter p
  rw [List.filter_filter] at hsub
  simp only [Bool.and_self] at hsub
  refine (hsub.eq_of_length ?_).symm
  exact (((List.mergeSort_perm xs le).filter _).length_eq).symm

theorem pairwise_mergeSort_stable {R : α → α → Prop} {xs : List α} (h : xs.Pairwise R) :
    (xs.mergeSort le).Pairwise fun a b => le a b = true ∧ (le b a = true → R a b) := by
  have hsorted := List.pairwise_mergeSort trans total xs
  refine hsorted.and (List.pairwise_iff_forall_sublist.2 fun {a b} hab hba => ?_)
  have hle : le a b = true := List.pairwise_iff_forall_sublist.1 hsorted hab
  have hself : le a a = true := by simpa using total a a
  have htie : ∀ c d, (le a c && le c a) = true → (le a d && le d a) = true → le c d = true := by
    intro c d hc hd
    rw [Bool.and_eq_true] at hc hd
    exact trans c a d hc.2 hd.1
  have hsub := hab.filter fun c => le a c && le c a
  rw [filter_mergeSort trans total htie] at hsub
  have hboth : [a, b].filter (fun c => le a c && le c a) = [a, b] := by simp [hself, hle, hba]
  rw [hboth] at hsub
  exact List.pairwise_iff_forall_sublist.1 h (hsub.trans List.filter_sublist)

end

theorem stablySorted_mergeSort (key : α → Int) (xs : List α) :
    StablySorted key xs (xs.mergeSort (keyLe key)) where
  perm := List.mergeSort_perm ..
  ascending := by
    have h := List.pairwise_mergeSort (keyLe_trans key) (keyLe_total key) xs
    exact h.imp fun hab => by simpa [keyLe] using hab
  stable n := by
    refine filter_mergeSort (keyLe_trans key) (keyLe_total key) (fun a b ha hb => ?_) xs
    simp only [keyLe, decide_eq_true_eq] at *
    omega

theorem mergeSort_eq_of_perm {le : α → α → Bool}
    (trans : ∀ a b c, le a b = true → le b c = true → le a c = true)
    (total : ∀ a b, (le a b || le b a) = true) {xs ys : List α} (h : xs.Perm ys)
    (anti : ∀ a ∈ xs, ∀ b ∈ xs, le a b = true → le b a = true → a = b) :
    xs.mergeSort le = ys.mergeSort le := by
  refine List.Perm.eq_of_pairwise ?_ (List.pairwise_mergeSort trans total xs)
    (List.pairwise_mergeSort trans total ys) ?_
  · intro a b ha hb
    rw [List.mem_mergeSort] at ha hb
    exact anti a ha b (h.mem_iff.2 hb)
  · exact (List.mergeSort_perm xs le).trans (h.trans (List.mergeSort_perm ys le).symm)

theorem mergeSort_keyLe_eq_of_perm {key : α → Int} {xs ys : List α} (h : xs.Perm ys)
    (hkey : ∀ a ∈ xs, ∀ b ∈ xs, key a = key b → a = b) :
    xs.mergeSort (keyLe key) = ys.mergeSort (keyLe key) := by
  refine mergeSort_eq_of_perm (keyLe_trans key) (keyLe_total key) h fun a ha b hb hab hba => ?_
  simp only [keyLe, decide_eq_true_eq] at hab hba
  exact hkey a ha b hb (by omega)

theorem min?_eq_of_perm {xs ys : List Int} (h : xs.Perm ys) : xs.min? = ys.min? := by
  cases hmin : ys.min? with
  | none =>
    rw [List.min?_eq_none_iff] at *
    rw [hmin] at h
    exact h.eq_nil
  | some m =>
    rw [List.min?_eq_some_iff] at *
    exact ⟨h.mem_iff.2 hmin.1, fun b hb => hmin.2 b (h.mem_iff.1 hb)⟩

/-! ## Picking one element -/

theorem find?_eq_some_of_unique {p : α → Bool} {l : List α} {a : α} (ha : a ∈ l) (hp : p a = true)
    (hunique : ∀ b ∈ l, p b = true → b = a) : l.find? p = some a := by
  cases hfind : l.find? p with
  | none => exact absurd hp (List.find?_eq_none.1 hfind a ha)
  | some b => rw [hunique b (List.mem_of_find?_eq_some hfind) (List.find?_some hfind)]

theorem find?_eq_some_of_imp {p q : α → Bool} {l : List α} {a : α} (h : l.find? q = some a)
    (hp : p a = true) (himp : ∀ b ∈ l, p b = true → q b = true) : l.find? p = some a := by
  induction l with
  | nil => cases h
  | cons b l ih =>
    rw [List.find?_cons] at h ⊢
    cases hq : q b with
    | true =>
      rw [hq] at h
      obtain rfl := Option.some.inj h
      rw [hp]
    | false =>
      rw [hq] at h
      have hb : p b = false := by
        cases hb : p b with
        | false => rfl
        | true => exact absurd (himp b List.mem_cons_self hb) (by simp [hq])
      rw [hb]
      exact ih h fun c hc => himp c (List.mem_cons_of_mem _ hc)

/-- Where at most one element is of a kind, the order of a list and repetitions in it do not
matter. -/
theorem find?_eq_of_mem_iff {p : α → Bool} {l l' : List α} (h : ∀ a, a ∈ l ↔ a ∈ l')
    (hunique : ∀ a ∈ l, ∀ b ∈ l, p a = true → p b = true → a = b) : l.find? p = l'.find? p := by
  cases hfind : l'.find? p with
  | none =>
    rw [List.find?_eq_none] at *
    exact fun a ha => hfind a ((h a).1 ha)
  | some a =>
    have ha := (h a).2 (List.mem_of_find?_eq_some hfind)
    have hp := List.find?_some hfind
    exact find?_eq_some_of_unique ha hp fun b hb hb' => hunique b hb a ha hb' hp

/-- A key that no two elements share picks one element. -/
theorem filter_key_eq_singleton {β : Type} [DecidableEq β] {key : α → β} {l : List α}
    (hnodup : (l.map key).Nodup) {a : α} (ha : a ∈ l) :
    l.filter (fun b => key b = key a) = [a] := by
  induction l with
  | nil => cases ha
  | cons b l ih =>
    rw [List.map_cons, List.nodup_cons] at hnodup
    rw [List.filter_cons]
    rcases List.mem_cons.1 ha with rfl | ha
    · have hrest : l.filter (fun b => key b = key a) = [] := by
        rw [List.filter_eq_nil_iff]
        intro b hb hkey
        exact hnodup.1 (of_decide_eq_true hkey ▸ List.mem_map_of_mem hb)
      rw [hrest]
      simp
    · have hne : key b ≠ key a := fun hkey => hnodup.1 (hkey ▸ List.mem_map_of_mem ha)
      rw [if_neg (by simpa using hne)]
      exact ih hnodup.2 ha

end DoxPages
