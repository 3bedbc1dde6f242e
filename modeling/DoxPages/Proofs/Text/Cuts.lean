import DoxPages.Text.Scan
import Mathlib.Data.List.Basic

/-!
# Leftmost finds

A pattern says where a find occurs in a text. `Leftmost` is the cut of a text at the
leftmost finds that do not overlap: no find occurs in a gap. There is only one such
cut, and a scan with a finder for the pattern makes it (`split_eq_iff`).
-/

namespace DoxPages.Text

structure Pattern (α : Type) where
  text : α → List Char
  /-- The find occurs between what is before it and what is behind it. -/
  occurs : (before : List Char) → α → (behind : List Char) → Prop

variable {α β : Type}

namespace Pattern

variable (p : Pattern α)

/-- No find occurs where one text ends and another one starts. -/
def NoneAt (before cs : List Char) : Prop :=
  ∀ a behind, cs = p.text a ++ behind → ¬ p.occurs before a behind

def Clear (before gap behind : List Char) : Prop :=
  ∀ u v, gap = u ++ v → v ≠ [] → p.NoneAt (before ++ u) (v ++ behind)

/-- The finder answers with the pattern's find, whatever the text. -/
structure FoundBy (find : Finder α) : Prop where
  text_ne_nil : ∀ {before a behind}, p.occurs before a behind → p.text a ≠ []
  sound : ∀ {before cs a n}, find before.getLast? cs = some (a, n) →
    ∃ behind, cs = p.text a ++ behind ∧ n = (p.text a).length ∧ p.occurs before a behind
  complete : ∀ {before a behind}, p.occurs before a behind →
    find before.getLast? (p.text a ++ behind) = some (a, (p.text a).length)

variable {p} {before gap behind : List Char}

theorem clear_nil : p.Clear before [] behind := by
  intro u v huv hv
  obtain ⟨-, rfl⟩ := List.append_eq_nil_iff.1 huv.symm
  exact absurd rfl hv

theorem clear_cons {c : Char} : p.Clear before (c :: gap) behind ↔
    p.NoneAt before (c :: (gap ++ behind)) ∧ p.Clear (before ++ [c]) gap behind := by
  constructor
  · intro h
    refine ⟨?_, fun u v huv hv => ?_⟩
    · simpa using h [] (c :: gap) rfl (List.cons_ne_nil c gap)
    · simpa using h (c :: u) v (by rw [huv]; rfl) hv
  · rintro ⟨hhead, htail⟩ u v huv hv
    cases u with
    | nil =>
      rw [List.append_nil, ← List.nil_append v, ← huv]
      exact hhead
    | cons d u =>
      obtain ⟨rfl, rfl⟩ := List.cons.inj huv
      simpa using htail u v rfl hv

end Pattern

namespace Split

def text (p : Pattern α) (s : Split α) : List Char := s.write id p.text

@[simp] theorem text_last (p : Pattern α) (gap : List Char) : (last gap).text p = gap := rfl

@[simp] theorem text_hit (p : Pattern α) (gap : List Char) (a : α) (rest : Split α) :
    (hit gap a rest).text p = gap ++ (p.text a ++ rest.text p) := List.append_assoc ..

/-- The cut at the leftmost finds, behind a text. -/
inductive Leftmost (p : Pattern α) : List Char → Split α → Prop
  | last {before gap : List Char} (clear : p.Clear before gap []) : Leftmost p before (.last gap)
  | hit {before gap : List Char} {a : α} {rest : Split α}
      (clear : p.Clear before gap (p.text a ++ rest.text p))
      (occurs : p.occurs (before ++ gap) a (rest.text p))
      (tail : Leftmost p (before ++ gap ++ p.text a) rest) : Leftmost p before (.hit gap a rest)

end Split

namespace Split

theorem text_cons (p : Pattern α) (c : Char) (s : Split α) : (s.cons c).text p = c :: s.text p :=
  write_cons_id c p.text s

theorem foldr_cons_last (gap cs : List Char) :
    gap.foldr cons (last cs : Split α) = last (gap ++ cs) := by
  induction gap with
  | nil => rfl
  | cons c gap ih => rw [List.foldr_cons, ih, cons, List.cons_append]

theorem foldr_cons_hit (gap cs : List Char) (a : α) (rest : Split α) :
    gap.foldr cons (hit cs a rest) = hit (gap ++ cs) a rest := by
  induction gap with
  | nil => rfl
  | cons c gap ih => rw [List.foldr_cons, ih, cons, List.cons_append]

theorem leftmost_cons {p : Pattern α} {before : List Char} {c : Char} {s : Split α}
    (hnone : p.NoneAt before (c :: s.text p)) (h : Leftmost p (before ++ [c]) s) :
    Leftmost p before (s.cons c) := by
  cases h with
  | last clear =>
    refine .last (Pattern.clear_cons.2 ⟨?_, clear⟩)
    simpa using hnone
  | hit clear occurs tail =>
    refine .hit (Pattern.clear_cons.2 ⟨?_, clear⟩) ?_ ?_
    · simpa using hnone
    · simpa using occurs
    · simpa using tail

theorem Leftmost.exists_occurs {p : Pattern α} {before : List Char} {s : Split α} {a : α}
    (h : s.Leftmost p before) (ha : a ∈ s.finds) : ∃ u v, p.occurs u a v := by
  induction h with
  | last clear => cases ha
  | hit clear occurs tail ih =>
    rcases List.mem_cons.1 ha with rfl | ha
    · exact ⟨_, _, occurs⟩
    · exact ih ha

end Split

namespace Pattern.FoundBy

open Split

variable {p : Pattern α} {find : Finder α} (hfind : p.FoundBy find) {before : List Char}
include hfind

theorem noneAt_iff {cs : List Char} : p.NoneAt before cs ↔ find before.getLast? cs = none := by
  constructor
  · intro h
    cases hcs : find before.getLast? cs with
    | none => rfl
    | some r =>
      obtain ⟨behind, rfl, -, hoccurs⟩ := hfind.sound hcs
      exact absurd hoccurs (h r.1 behind rfl)
  · rintro h a behind rfl hoccurs
    rw [hfind.complete hoccurs] at h
    cases h

/-! ## Scanning -/

theorem split_of_noneAt {c : Char} {cs : List Char} (h : p.NoneAt before (c :: cs)) :
    split find before.getLast? (c :: cs) =
      (split find (before ++ [c]).getLast? cs).cons c := by
  rw [hfind.noneAt_iff] at h
  rw [split, h, List.getLast?_concat]

theorem split_of_occurs {a : α} {behind : List Char} (h : p.occurs before a behind) :
    split find before.getLast? (p.text a ++ behind) =
      .hit [] a (split find (before ++ p.text a).getLast? behind) := by
  have hhit := hfind.complete h
  have hne := hfind.text_ne_nil h
  rw [List.getLast?_append_of_ne_nil before hne]
  cases htext : p.text a with
  | nil => exact absurd htext hne
  | cons c cs =>
    rw [htext, List.cons_append] at hhit
    rw [List.cons_append, split, hhit]
    have hchar : (c :: (cs ++ behind))[cs.length]? = (c :: cs).getLast? := by
      rw [← List.cons_append, List.getElem?_append_left (by simp), List.getLast?_eq_getElem?]
      rfl
    simp only [List.length_cons, hchar, List.drop_left]

theorem split_of_clear {gap behind : List Char} (h : p.Clear before gap behind) :
    split find before.getLast? (gap ++ behind) =
      gap.foldr Split.cons (split find (before ++ gap).getLast? behind) := by
  induction gap generalizing before with
  | nil =>
    rw [List.append_nil]
    rfl
  | cons c gap ih =>
    obtain ⟨hnone, hclear⟩ := clear_cons.1 h
    have hrest := ih hclear
    rw [List.append_assoc, List.singleton_append] at hrest
    rw [List.cons_append, hfind.split_of_noneAt hnone, hrest]
    rfl

/-- A scan cuts a text at the leftmost finds. -/
theorem leftmost_split (before cs : List Char) :
    (split find before.getLast? cs).text p = cs ∧
      Leftmost p before (split find before.getLast? cs) := by
  induction hlength : cs.length using Nat.strongRecOn generalizing before cs with
  | ind length ih =>
    cases cs with
    | nil =>
      rw [split]
      exact ⟨rfl, .last clear_nil⟩
    | cons c cs =>
      rw [List.length_cons] at hlength
      cases hhit : find before.getLast? (c :: cs) with
      | none =>
        have hnone := hfind.noneAt_iff.2 hhit
        obtain ⟨htext, hleftmost⟩ := ih cs.length (by omega) (before ++ [c]) cs rfl
        rw [hfind.split_of_noneAt hnone, text_cons, htext]
        exact ⟨rfl, leftmost_cons (htext.symm ▸ hnone) hleftmost⟩
      | some r =>
        obtain ⟨behind, hcs, -, hoccurs⟩ := hfind.sound hhit
        have hpos := List.length_pos_iff.2 (hfind.text_ne_nil hoccurs)
        have hshort := congrArg List.length hcs
        rw [List.length_cons, List.length_append] at hshort
        obtain ⟨htext, hleftmost⟩ :=
          ih behind.length (by omega) (before ++ p.text r.1) behind rfl
        rw [hcs, hfind.split_of_occurs hoccurs, text_hit, htext]
        refine ⟨rfl, .hit clear_nil ?_ ?_⟩
        · rwa [htext, List.append_nil]
        · rwa [List.append_nil]

/-- There is only one such cut. -/
theorem split_eq {s : Split α} (h : Leftmost p before s) :
    split find before.getLast? (s.text p) = s := by
  induction h with
  | last clear =>
    have hgap := hfind.split_of_clear clear
    rw [List.append_nil] at hgap
    rw [text_last, hgap, split, foldr_cons_last, List.append_nil]
  | hit clear occurs tail ih =>
    rw [text_hit, hfind.split_of_clear clear, hfind.split_of_occurs occurs, ih, foldr_cons_hit,
      List.append_nil]

theorem split_eq_iff (before : List Char) {cs : List Char} {s : Split α} :
    split find before.getLast? cs = s ↔ s.text p = cs ∧ Leftmost p before s := by
  constructor
  · rintro rfl
    exact hfind.leftmost_split before cs
  · rintro ⟨rfl, h⟩
    exact hfind.split_eq h

end Pattern.FoundBy

end DoxPages.Text
