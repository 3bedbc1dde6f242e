import DoxPages.Proofs.Text.Strip

/-!
# Columns of a table line

The columns of a table line are told apart by its separators: the bars that an even number of
backslashes stands before. An escape puts one more backslash before each bar. So bars that were
free are none any more, and bars that were escaped in the text before become separators.
-/

namespace DoxPages.Text

def slashesAfter (slashes : Nat) (c : Char) : Nat := if c = '\\' then slashes + 1 else 0

/-- The number of backslashes at the end of a text that `slashes` of them stand before. -/
def slashesBehind (slashes : Nat) (cs : List Char) : Nat := cs.foldl slashesAfter slashes

/-- The bars behind an even (`0`) or odd (`1`) number of backslashes, in a text that `slashes` of
them stand before. -/
def barsBehind (parity slashes : Nat) : List Char → Nat
  | [] => 0
  | c :: cs =>
    (if c = '|' ∧ slashes % 2 = parity then 1 else 0) +
      barsBehind parity (slashesAfter slashes c) cs

/-- The bars that tell columns apart. -/
def separators (cs : List Char) : Nat := barsBehind 0 0 cs

/-- The bars that a backslash makes part of a column. -/
def escapedBars (cs : List Char) : Nat := barsBehind 1 0 cs

def escapesNext (cs : List Char) : Bool := slashesBehind 0 cs % 2 == 1

variable {parity slashes : Nat} {cs ds : List Char}

/-! ## Texts in a row -/

theorem slashesBehind_append (slashes : Nat) (cs ds : List Char) :
    slashesBehind slashes (cs ++ ds) = slashesBehind (slashesBehind slashes cs) ds :=
  List.foldl_append

theorem barsBehind_append (parity slashes : Nat) (cs ds : List Char) :
    barsBehind parity slashes (cs ++ ds) =
      barsBehind parity slashes cs + barsBehind parity (slashesBehind slashes cs) ds := by
  induction cs generalizing slashes with
  | nil => exact (Nat.zero_add _).symm
  | cons c cs ih =>
    rw [List.cons_append, barsBehind, barsBehind, ih, Nat.add_assoc]
    rfl

theorem separators_append (h : slashesBehind 0 cs = 0) (ds : List Char) :
    separators (cs ++ ds) = separators cs + separators ds := by
  rw [separators, barsBehind_append, h, separators, separators]

theorem barsBehind_of_not_mem (h : '|' ∉ cs) : barsBehind parity slashes cs = 0 := by
  induction cs generalizing slashes with
  | nil => rfl
  | cons c cs ih =>
    rw [List.mem_cons, not_or] at h
    rw [barsBehind, if_neg fun hbar => h.1 hbar.1.symm, ih h.2]

/-- A bar at the end of a text is a separator if the backslashes before it do not escape it. -/
theorem separators_concat_bar (cs : List Char) :
    separators (cs ++ ['|']) = separators cs + if escapesNext cs then 0 else 1 := by
  rw [separators, barsBehind_append, separators, escapesNext, barsBehind, barsBehind, Nat.add_zero]
  rcases Nat.mod_two_eq_zero_or_one (slashesBehind 0 cs) with h | h <;> simp [h]

theorem slashesBehind_concat_of_ne {c : Char} (hc : c ≠ '\\') (slashes : Nat) (cs : List Char) :
    slashesBehind slashes (cs ++ [c]) = 0 := by
  rw [slashesBehind_append]
  exact if_neg hc

theorem getLast?_eq_slash_iff : cs.getLast? = some '\\' ↔ 0 < slashesBehind 0 cs := by
  rcases List.eq_nil_or_concat cs with rfl | ⟨ds, c, rfl⟩
  · exact iff_of_false nofun (Nat.lt_irrefl 0)
  · rw [List.concat_eq_append, List.getLast?_concat, Option.some.injEq]
    by_cases hc : c = '\\'
    · rw [slashesBehind_append]
      exact iff_of_true hc (by simp [slashesBehind, slashesAfter, hc])
    · rw [slashesBehind_concat_of_ne hc]
      exact iff_of_false hc (Nat.lt_irrefl 0)

/-! ## Blanks -/

theorem ne_slash_of_isBlank {c : Char} (h : isBlank c = true) : c ≠ '\\' := by
  rintro rfl
  revert h
  decide

theorem ne_bar_of_isBlank {c : Char} (h : isBlank c = true) : c ≠ '|' := by
  rintro rfl
  revert h
  decide

theorem barsBehind_blank {c : Char} (h : isBlank c = true) (parity slashes : Nat)
    (cs : List Char) :
    barsBehind parity slashes (c :: cs) = barsBehind parity 0 cs := by
  rw [barsBehind, if_neg fun hbar => ne_bar_of_isBlank h hbar.1, slashesAfter,
    if_neg (ne_slash_of_isBlank h), Nat.zero_add]

theorem slashesBehind_blank {c : Char} (h : isBlank c = true) (slashes : Nat) (cs : List Char) :
    slashesBehind slashes (c :: cs) = slashesBehind 0 cs := by
  rw [slashesBehind, List.foldl_cons, slashesAfter, if_neg (ne_slash_of_isBlank h), slashesBehind]

/-- A bar behind a space is a separator, whatever stands in front of the space. -/
theorem separators_append_space_bar (cs ds : List Char) :
    separators (cs ++ ' ' :: '|' :: ds) = separators cs + 1 + separators ds := by
  have hblank : isBlank ' ' = true := by decide
  rw [separators, barsBehind_append, barsBehind_blank hblank, barsBehind, if_pos ⟨rfl, rfl⟩,
    Nat.add_assoc]
  rfl

theorem barsBehind_allBlank (h : allBlank cs = true) : barsBehind parity slashes cs = 0 := by
  induction cs generalizing slashes with
  | nil => rfl
  | cons c cs ih =>
    rw [allBlank_cons] at h
    rw [barsBehind_blank h.1, ih h.2]

theorem slashesBehind_allBlank (h : allBlank cs = true) : slashesBehind 0 cs = 0 := by
  induction cs with
  | nil => rfl
  | cons c cs ih =>
    rw [allBlank_cons] at h
    rw [slashesBehind_blank h.1, ih h.2]

theorem barsBehind_dropWhile_isBlank :
    barsBehind parity 0 (cs.dropWhile isBlank) = barsBehind parity 0 cs := by
  induction cs with
  | nil => rfl
  | cons c cs ih =>
    rw [List.dropWhile_cons]
    split
    · rename_i hc
      rw [ih, barsBehind_blank hc]
    · rfl

theorem slashesBehind_dropWhile_isBlank :
    slashesBehind 0 (cs.dropWhile isBlank) = slashesBehind 0 cs := by
  induction cs with
  | nil => rfl
  | cons c cs ih =>
    rw [List.dropWhile_cons]
    split
    · rename_i hc
      rw [ih, slashesBehind_blank hc]
    · rfl

theorem barsBehind_stripRight :
    barsBehind parity slashes (stripRight cs) = barsBehind parity slashes cs := by
  obtain ⟨blanks, hblanks, hcs⟩ := exists_trimRight_append isBlank cs
  conv => rhs; rw [hcs, barsBehind_append, barsBehind_allBlank hblanks, Nat.add_zero]
  rfl

/-! ## Escapes -/

theorem slashesBehind_escape :
    slashesBehind slashes (replaceChar '|' ['\\', '|'] cs) = slashesBehind slashes cs := by
  induction cs generalizing slashes with
  | nil => rfl
  | cons c cs ih =>
    rw [replaceChar_cons, slashesBehind_append, ih]
    split
    · rename_i hc
      rw [hc]
      rfl
    · rfl

/-- The separators of an escaped text are the bars that were escaped in it before. -/
theorem separators_escape :
    barsBehind 0 slashes (replaceChar '|' ['\\', '|'] cs) = barsBehind 1 slashes cs := by
  induction cs generalizing slashes with
  | nil => rfl
  | cons c cs ih =>
    rw [replaceChar_cons, barsBehind_append, ih, barsBehind]
    split
    · rename_i hc
      have hparity : (slashes + 1) % 2 = 0 ↔ slashes % 2 = 1 := by omega
      simp [barsBehind, slashesBehind, slashesAfter, hc, hparity]
    · rename_i hc
      simp [barsBehind, slashesBehind, hc]

section
variable {old : Char} {new : List Char} (hslash : old ≠ '\\')
  (hnew : ∀ slashes, slashesBehind slashes new = 0)
include hslash hnew

/-- A replacement that ends in no backslash ends like what it replaces. -/
theorem slashesBehind_replaceChar :
    slashesBehind slashes (replaceChar old new cs) = slashesBehind slashes cs := by
  induction cs generalizing slashes with
  | nil => rfl
  | cons c cs ih =>
    rw [replaceChar_cons, slashesBehind_append, ih]
    split
    · rename_i hc
      rw [hnew, slashesBehind, slashesBehind, List.foldl_cons, hc, slashesAfter, if_neg hslash]
    · rfl

theorem barsBehind_replaceChar (hbar : old ≠ '|')
    (hbars : ∀ slashes, barsBehind parity slashes new = 0) :
    barsBehind parity slashes (replaceChar old new cs) = barsBehind parity slashes cs := by
  induction cs generalizing slashes with
  | nil => rfl
  | cons c cs ih =>
    rw [replaceChar_cons, barsBehind_append, ih, barsBehind]
    split
    · rename_i hc
      rw [hbars, hnew, hc, if_neg fun h => hbar h.1, slashesAfter, if_neg hslash]
    · rename_i hc
      simp [barsBehind, slashesBehind]

end

section
variable (cs : List Char)

/-- A cell on one line has for separators the bars that were escaped in it before. -/
theorem separators_escapeBreaks :
    separators (replaceChar '\n' "<br/>".toList (replaceChar '|' ['\\', '|'] cs)) =
      escapedBars cs := by
  have hbars (slashes : Nat) : barsBehind 0 slashes "<br/>".toList = 0 := rfl
  rw [separators, barsBehind_replaceChar (by decide) (fun _ => rfl) (by decide) hbars,
    separators_escape, escapedBars]

theorem lineFeed_not_mem_escapeBreaks :
    '\n' ∉ replaceChar '\n' "<br/>".toList (replaceChar '|' ['\\', '|'] cs) := by
  rw [replaceChar, List.mem_flatMap]
  rintro ⟨c, -, hc⟩
  split at hc
  · revert hc
    decide
  · rename_i hne
    exact hne (List.mem_singleton.1 hc).symm

end

end DoxPages.Text
