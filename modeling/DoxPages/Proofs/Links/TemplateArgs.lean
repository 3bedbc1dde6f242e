import DoxPages.Links.TemplateArgs

/-!
# Balanced brackets

A template argument list is a text that opens a bracket and closes it with its last
character: up to there more brackets are open than closed.
-/

namespace DoxPages.TemplateArgs

/-- The last character closes the last of `depth` open brackets. -/
structure Closes (depth : Nat) (cs : List Char) : Prop where
  even : depth + cs.count '<' = cs.count '>'
  open_before : ∀ u v, cs = u ++ v → v ≠ [] → u.count '>' < depth + u.count '<'

def Balanced (cs : List Char) : Prop := ∃ inner, cs = '<' :: inner ∧ Closes 1 inner

variable {depth : Nat} {cs : List Char}

theorem not_closes_nil (h : 0 < depth) : ¬ Closes depth [] := by
  intro hcs
  have heven := hcs.even
  simp at heven
  omega

theorem closes_cons {c : Char} (h : 0 < depth) :
    Closes depth (c :: cs) ↔
      depth + (c :: cs).count '<' = (c :: cs).count '>' ∧
        ∀ u v, cs = u ++ v → v ≠ [] → (c :: u).count '>' < depth + (c :: u).count '<' := by
  constructor
  · rintro ⟨heven, hopen⟩
    exact ⟨heven, fun u v huv hv => hopen (c :: u) v (by rw [huv]; rfl) hv⟩
  · rintro ⟨heven, hopen⟩
    refine ⟨heven, fun u v huv hv => ?_⟩
    cases u with
    | nil => simpa using h
    | cons d u =>
      obtain ⟨rfl, rfl⟩ := List.cons.inj huv
      exact hopen u v rfl hv

theorem closes_open (h : 0 < depth) : Closes depth ('<' :: cs) ↔ Closes (depth + 1) cs := by
  have hlt (u : List Char) : ('<' :: u).count '<' = u.count '<' + 1 := List.count_cons_self
  have hgt (u : List Char) : ('<' :: u).count '>' = u.count '>' :=
    List.count_cons_of_ne (by decide)
  simp only [closes_cons h, hlt, hgt]
  constructor
  · rintro ⟨heven, hopen⟩
    exact ⟨by omega, fun u v huv hv => by have := hopen u v huv hv; omega⟩
  · rintro ⟨heven, hopen⟩
    exact ⟨by omega, fun u v huv hv => by have := hopen u v huv hv; omega⟩

theorem closes_close (h : 0 < depth) : Closes depth ('>' :: cs) ↔
    if depth ≤ 1 then cs = [] else Closes (depth - 1) cs := by
  have hlt (u : List Char) : ('>' :: u).count '<' = u.count '<' :=
    List.count_cons_of_ne (by decide)
  have hgt (u : List Char) : ('>' :: u).count '>' = u.count '>' + 1 := List.count_cons_self
  simp only [closes_cons h, hlt, hgt]
  split
  · obtain rfl : depth = 1 := by omega
    constructor
    · rintro ⟨-, hopen⟩
      cases cs with
      | nil => rfl
      | cons d cs =>
        have hfirst := hopen [] (d :: cs) rfl (List.cons_ne_nil d cs)
        simp at hfirst
    · rintro rfl
      refine ⟨rfl, fun u v huv hv => ?_⟩
      obtain ⟨-, rfl⟩ := List.append_eq_nil_iff.1 huv.symm
      exact absurd rfl hv
  · constructor
    · rintro ⟨heven, hopen⟩
      exact ⟨by omega, fun u v huv hv => by have := hopen u v huv hv; omega⟩
    · rintro ⟨heven, hopen⟩
      exact ⟨by omega, fun u v huv hv => by have := hopen u v huv hv; omega⟩

theorem closes_other {c : Char} (h : 0 < depth) (hopen : c ≠ '<') (hclose : c ≠ '>') :
    Closes depth (c :: cs) ↔ Closes depth cs := by
  have hlt (u : List Char) : (c :: u).count '<' = u.count '<' := List.count_cons_of_ne hopen
  have hgt (u : List Char) : (c :: u).count '>' = u.count '>' := List.count_cons_of_ne hclose
  simp only [closes_cons h, hlt, hgt]
  exact ⟨fun ⟨heven, hopen⟩ => ⟨heven, hopen⟩, fun ⟨heven, hopen⟩ => ⟨heven, hopen⟩⟩

/-! ## The scan for the closing bracket -/

/-- Some front of the text closes the brackets, and it has this length. -/
def ClosedAt (depth : Nat) (cs : List Char) (n : Nat) : Prop :=
  ∃ u v, cs = u ++ v ∧ n = u.length ∧ Closes depth u

theorem closedAt_cons {c : Char} {n : Nat} (h : 0 < depth) :
    ClosedAt depth (c :: cs) n ↔
      ∃ u v, cs = u ++ v ∧ n = u.length + 1 ∧ Closes depth (c :: u) := by
  constructor
  · rintro ⟨u, v, huv, rfl, hu⟩
    cases u with
    | nil => exact absurd hu (not_closes_nil h)
    | cons d u =>
      obtain ⟨rfl, rfl⟩ := List.cons.inj huv
      exact ⟨u, v, rfl, rfl, hu⟩
  · rintro ⟨u, v, rfl, rfl, hu⟩
    exact ⟨c :: u, v, rfl, rfl, hu⟩

theorem closing?_eq_some_iff {n : Nat} (h : 0 < depth) :
    closing? depth cs = some n ↔ ClosedAt depth cs n := by
  induction cs generalizing depth n with
  | nil =>
    rw [closing?]
    constructor
    · intro hn
      cases hn
    · rintro ⟨u, v, huv, -, hu⟩
      obtain ⟨rfl, -⟩ := List.append_eq_nil_iff.1 huv.symm
      exact absurd hu (not_closes_nil h)
  | cons c cs ih =>
    -- one bracket more or less is open behind the first character
    have hstep {d : Nat} (hd : 0 < d) (hfirst : ∀ u, Closes depth (c :: u) ↔ Closes d u) :
        (closing? d cs).map (· + 1) = some n ↔ ClosedAt depth (c :: cs) n := by
      rw [closedAt_cons h]
      simp only [hfirst, Option.map_eq_some_iff, ih hd]
      constructor
      · rintro ⟨_, ⟨u, v, huv, rfl, hu⟩, rfl⟩
        exact ⟨u, v, huv, rfl, hu⟩
      · rintro ⟨u, v, huv, rfl, hu⟩
        exact ⟨_, ⟨u, v, huv, rfl, hu⟩, rfl⟩
    rw [closing?]
    split
    · rename_i hc
      subst hc
      exact hstep (by omega) fun u => closes_open h
    · split
      · rename_i hc
        subst hc
        split
        · rename_i hlast
          simp only [closedAt_cons h, closes_close h, if_pos hlast]
          constructor
          · intro hn
            exact ⟨[], cs, rfl, (Option.some.inj hn).symm, rfl⟩
          · rintro ⟨_, _, _, rfl, rfl⟩
            rfl
        · rename_i hlast
          exact hstep (by omega) fun u => by rw [closes_close h, if_neg hlast]
      · rename_i hopen hclose
        exact hstep h fun u => closes_other h hopen hclose

/-- The argument list of a text is the front of it that is balanced. -/
theorem length?_eq_some_iff {n : Nat} : length? cs = some n ↔
    ∃ args behind, cs = args ++ behind ∧ n = args.length ∧ Balanced args := by
  cases cs with
  | nil =>
    rw [length?]
    refine ⟨nofun, ?_⟩
    rintro ⟨args, behind, hcs, -, inner, rfl, -⟩
    cases hcs
  | cons c cs =>
    rw [length?]
    split
    · rename_i hc
      subst hc
      simp only [Option.map_eq_some_iff, closing?_eq_some_iff Nat.one_pos]
      constructor
      · rintro ⟨_, ⟨u, v, rfl, rfl, hu⟩, rfl⟩
        exact ⟨'<' :: u, v, rfl, rfl, u, rfl, hu⟩
      · rintro ⟨args, behind, hcs, rfl, inner, rfl, hinner⟩
        obtain ⟨-, rfl⟩ := List.cons.inj hcs
        exact ⟨_, ⟨inner, behind, rfl, rfl, hinner⟩, rfl⟩
    · rename_i hc
      refine ⟨nofun, ?_⟩
      rintro ⟨args, behind, hcs, -, inner, rfl, -⟩
      exact absurd (List.cons.inj hcs).1 hc

end DoxPages.TemplateArgs
