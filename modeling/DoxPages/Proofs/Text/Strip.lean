import DoxPages.Text.Blank
import Mathlib.Data.List.TakeWhile

/-!
# Blanks at the ends of a text

A run of characters of one class ends at the first character of another one. Stripping stops
at the first character on either side that is not blank.
-/

namespace DoxPages.Text

/-! ## Runs of characters -/

section

def StopsAt (p : Char → Bool) (cs : List Char) : Prop := ∀ c ∈ cs.head?, p c = false

variable {p : Char → Bool} {cs run rest : List Char}

theorem takeWhile_append_of_stopsAt (hrun : ∀ c ∈ run, p c = true) (hrest : StopsAt p rest) :
    (run ++ rest).takeWhile p = run ∧ (run ++ rest).dropWhile p = rest := by
  rw [List.takeWhile_append_of_pos hrun, List.dropWhile_append_of_pos hrun]
  cases rest with
  | nil => simp
  | cons c rest =>
    have hc : p c = false := hrest c rfl
    simp [hc]

theorem stopsAt_cons {c : Char} (h : p c = false) (cs : List Char) : StopsAt p (c :: cs) := by
  intro d hd
  obtain rfl := Option.some.inj hd
  exact h

theorem exists_run (p : Char → Bool) (cs : List Char) : ∃ run rest, cs = run ++ rest ∧
    cs.takeWhile p = run ∧ cs.dropWhile p = rest ∧ (∀ c ∈ run, p c = true) ∧ StopsAt p rest := by
  refine ⟨_, _, List.takeWhile_append_dropWhile.symm, rfl, rfl, ?_, ?_⟩
  · exact List.all_eq_true.1 List.all_takeWhile
  · intro c hc
    have hstop := List.head?_dropWhile_not p cs
    rw [Option.mem_def.1 hc] at hstop
    simpa using hstop

end

/-! ## Stripping -/

variable {cs : List Char}

theorem strip_of_allBlank (h : allBlank cs = true) : strip cs = [] := by
  have hnil : cs.dropWhile isBlank = [] := List.dropWhile_eq_nil_iff.2 (List.all_eq_true.1 h)
  rw [strip, trim, hnil]
  rfl

theorem stripRight_of_allBlank (h : allBlank cs = true) : stripRight cs = [] := by
  rw [allBlank, ← List.all_reverse, List.all_eq_true] at h
  rw [stripRight, trimRight, List.dropWhile_eq_nil_iff.2 h]
  rfl

theorem getLast?_strip {c : Char} (h : (strip cs).getLast? = some c) : isBlank c = false := by
  rw [strip, trim, List.getLast?_reverse] at h
  have hhead := List.head?_dropWhile_not isBlank (cs.dropWhile isBlank).reverse
  rw [h] at hhead
  simpa using hhead

theorem trimRight_eq_self {p : Char → Bool} (h : ∀ c, cs.getLast? = some c → p c = false) :
    trimRight p cs = cs := by
  rcases List.eq_nil_or_concat cs with rfl | ⟨ds, c, rfl⟩
  · rfl
  · rw [List.concat_eq_append] at h ⊢
    have hc := h c List.getLast?_concat
    rw [trimRight, List.reverse_append, List.reverse_singleton, List.singleton_append,
      List.dropWhile_cons_of_neg (by rw [hc]; nofun), List.reverse_cons, List.reverse_reverse]

theorem stripRight_eq_self (h : ∀ c, cs.getLast? = some c → isBlank c = false) :
    stripRight cs = cs := trimRight_eq_self h

theorem strip_eq_self (h : ∀ c ∈ cs, isBlank c = false) : strip cs = cs := by
  have hfront : cs.dropWhile isBlank = cs := by
    cases cs with
    | nil => rfl
    | cons c ds => exact List.dropWhile_cons_of_neg (by rw [h c List.mem_cons_self]; nofun)
  change stripRight (cs.dropWhile isBlank) = cs
  rw [hfront]
  exact stripRight_eq_self fun c hc => h c (List.mem_of_getLast? hc)

theorem trimRight_append_cons {p : Char → Bool} {c : Char} (hc : p c = false) (cs ds : List Char) :
    trimRight p (cs ++ c :: ds) = cs ++ trimRight p (c :: ds) := by
  have hstop : ((c :: ds).reverse.dropWhile p).isEmpty ≠ true := by
    rw [ne_eq, List.isEmpty_iff, List.dropWhile_eq_nil_iff]
    intro hdrop
    have hc' := hdrop c (List.mem_reverse.2 List.mem_cons_self)
    rw [hc] at hc'
    cases hc'
  rw [trimRight, trimRight, List.reverse_append, List.dropWhile_append, if_neg hstop,
    List.reverse_append, List.reverse_reverse]

theorem trimRight_cons {p : Char → Bool} {c : Char} (hc : p c = false) (ds : List Char) :
    trimRight p (c :: ds) = c :: trimRight p ds := by
  have hkept : [c].dropWhile p = [c] := List.dropWhile_cons_of_neg (by rw [hc]; nofun)
  rw [trimRight, trimRight, List.reverse_cons, List.dropWhile_append, hkept]
  split
  · rename_i hempty
    rw [List.isEmpty_iff.1 hempty]
    rfl
  · rw [List.reverse_append]
    rfl

theorem trimRight_isPrefix (p : Char → Bool) (cs : List Char) : trimRight p cs <+: cs := by
  have hsuffix := List.dropWhile_suffix p (l := cs.reverse)
  rw [← List.reverse_prefix, List.reverse_reverse] at hsuffix
  exact hsuffix

theorem trim_sublist (p : Char → Bool) (cs : List Char) : (trim p cs).Sublist cs :=
  (trimRight_isPrefix p _).sublist.trans (List.dropWhile_suffix p).sublist

theorem exists_trimRight_append (p : Char → Bool) (cs : List Char) :
    ∃ ds, ds.all p = true ∧ cs = trimRight p cs ++ ds := by
  refine ⟨(cs.reverse.takeWhile p).reverse, ?_, ?_⟩
  · rw [List.all_reverse, List.all_eq_true]
    exact fun c hc => List.mem_takeWhile_imp hc
  · rw [trimRight, ← List.reverse_append, List.takeWhile_append_dropWhile, List.reverse_reverse]

theorem head?_strip {c : Char} (h : (strip cs).head? = some c) : isBlank c = false := by
  obtain ⟨ds, hds⟩ := List.head?_eq_some_iff.1 h
  obtain ⟨rest, hrest⟩ := trimRight_isPrefix isBlank (cs.dropWhile isBlank)
  have hhead := List.head?_dropWhile_not isBlank cs
  rw [← hrest, show trimRight isBlank (cs.dropWhile isBlank) = c :: ds from hds,
    List.cons_append, List.head?_cons] at hhead
  simpa using hhead

/-- What is stripped already loses no other blanks at its ends. -/
theorem trim_strip {p : Char → Bool} (hp : ∀ c, p c = true → isBlank c = true) (cs : List Char) :
    trim p (strip cs) = strip cs := by
  have hkept {c : Char} (hc : isBlank c = false) : p c = false := by
    rw [← Bool.not_eq_true]
    intro hdropped
    rw [hp c hdropped] at hc
    cases hc
  have hfront : (strip cs).dropWhile p = strip cs := by
    cases hstrip : strip cs with
    | nil => rfl
    | cons c ds =>
      rw [List.dropWhile_cons_of_neg]
      rw [hkept (head?_strip (by rw [hstrip]; rfl))]
      exact Bool.false_ne_true
  rw [trim, hfront]
  exact trimRight_eq_self fun c hc => hkept (getLast?_strip hc)

theorem strip_append_cons {c : Char} (hc : isBlank c = false) (cs ds : List Char) :
    strip (cs ++ c :: ds) = cs.dropWhile isBlank ++ stripRight (c :: ds) := by
  have hdrop : (cs ++ c :: ds).dropWhile isBlank = cs.dropWhile isBlank ++ c :: ds := by
    rw [List.dropWhile_append, List.dropWhile_cons_of_neg (by rw [hc]; nofun)]
    split
    · rename_i hempty
      rw [List.isEmpty_iff.1 hempty, List.nil_append]
    · rfl
  change stripRight ((cs ++ c :: ds).dropWhile isBlank) = _
  rw [hdrop]
  exact trimRight_append_cons hc _ _

end DoxPages.Text
