import DoxPages.Text.Blank

/-!
# The ink of a text

What is left of a text without its blanks. Stripping and trimming leave the ink
alone, and an escape that writes its character again only adds to it.
-/

namespace DoxPages.Text

/-- The characters of a text that are not blank. -/
def ink (cs : List Char) : List Char := cs.filter fun c => !isBlank c

@[simp] theorem ink_nil : ink [] = [] := rfl

@[simp] theorem ink_append (cs ds : List Char) : ink (cs ++ ds) = ink cs ++ ink ds :=
  List.filter_append ..

theorem ink_cons (c : Char) (cs : List Char) : ink (c :: cs) = ink [c] ++ ink cs :=
  ink_append [c] cs

@[simp] theorem ink_reverse (cs : List Char) : ink cs.reverse = (ink cs).reverse :=
  List.filter_reverse ..

theorem ink_sublist (cs : List Char) : (ink cs).Sublist cs := List.filter_sublist

theorem ink_mono {cs ds : List Char} (h : cs.Sublist ds) : (ink cs).Sublist (ink ds) :=
  h.filter _

theorem ink_eq_nil_iff {cs : List Char} : ink cs = [] ↔ allBlank cs = true := by
  simp [ink, allBlank, List.filter_eq_nil_iff]

theorem ink_cons_of_blank {c : Char} (h : isBlank c = true) (cs : List Char) :
    ink (c :: cs) = ink cs := by
  simp [ink, h]

/-! ## Trimming -/

section
variable {p : Char → Bool}

theorem ink_dropWhile (hp : ∀ c, p c = true → isBlank c = true) (cs : List Char) :
    ink (cs.dropWhile p) = ink cs := by
  induction cs with
  | nil => rfl
  | cons c cs ih =>
    rw [List.dropWhile_cons]
    split
    · rename_i hc
      rw [ih, ink_cons_of_blank (hp c hc)]
    · rfl

theorem ink_trimRight (hp : ∀ c, p c = true → isBlank c = true) (cs : List Char) :
    ink (trimRight p cs) = ink cs := by
  unfold trimRight
  rw [ink_reverse, ink_dropWhile hp, ink_reverse, List.reverse_reverse]

theorem ink_trim (hp : ∀ c, p c = true → isBlank c = true) (cs : List Char) :
    ink (trim p cs) = ink cs := by
  change ink (trimRight p (cs.dropWhile p)) = ink cs
  rw [ink_trimRight hp, ink_dropWhile hp]

end

@[simp] theorem ink_strip (cs : List Char) : ink (strip cs) = ink cs :=
  ink_trim (fun _ h => h) cs

@[simp] theorem ink_stripRight (cs : List Char) : ink (stripRight cs) = ink cs :=
  ink_trimRight (fun _ h => h) cs

theorem ink_trim_lines (cs : List Char) : ink (trim (· == '\n') cs) = ink cs := by
  refine ink_trim (fun c hc => ?_) cs
  obtain rfl : c = '\n' := by simpa using hc
  decide

/-! ## Replacing characters -/

theorem sublist_replaceChar {old : Char} {new : List Char} (h : old ∈ new) (cs : List Char) :
    cs.Sublist (replaceChar old new cs) := by
  induction cs with
  | nil => exact List.Sublist.slnil
  | cons c cs ih =>
    rw [replaceChar_cons, ← List.singleton_append]
    refine List.Sublist.append ?_ ih
    split
    · rename_i hc
      rw [List.singleton_sublist, hc]
      exact h
    · exact List.Sublist.refl _

theorem ink_sublist_replaceChar {old : Char} (h : isBlank old = true) (new cs : List Char) :
    (ink cs).Sublist (ink (replaceChar old new cs)) := by
  induction cs with
  | nil => exact List.Sublist.slnil
  | cons c cs ih =>
    rw [replaceChar_cons, ink_append, ← List.singleton_append, ink_append]
    refine List.Sublist.append ?_ ih
    split
    · rename_i hc
      rw [hc, ink_cons_of_blank h]
      exact List.nil_sublist _
    · exact List.Sublist.refl _

end DoxPages.Text
