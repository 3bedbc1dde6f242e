import DoxPages.Text.Blank
import DoxPages.Text.Word
import Mathlib.Data.List.Basic

/-!
# Words and identifiers

Words hold no blanks. A word stands at the end of a text if it is all of the text's last
word, and not only the end of it.
-/

namespace DoxPages.Text

/-! ## Word characters -/

theorem inRanges_of_disjoint {ranges ranges' : List (Nat × Nat)} {c : Char}
    (h : (ranges'.all fun r' => ranges.all fun r => r.2 < r'.1 || r'.2 < r.1) = true)
    (hc : inRanges ranges c = true) : inRanges ranges' c = false := by
  obtain ⟨r, hr, hrc⟩ := List.any_eq_true.1 hc
  rw [inRanges, List.any_eq_false]
  intro r' hr'
  have hdisjoint := List.all_eq_true.1 (List.all_eq_true.1 h r' hr') r hr
  simp only [Bool.and_eq_true, Bool.or_eq_true, decide_eq_true_eq] at hdisjoint hrc ⊢
  omega

theorem letters_not_blank :
    (blankRanges.all fun b => letterRanges.all fun r => r.2 < b.1 || b.2 < r.1) = true := by
  decide +kernel

theorem isBlank_of_isWord {c : Char} (h : isWord c = true) : isBlank c = false := by
  by_cases hascii : c.toNat < 128
  · have hall : ∀ n < 128, isWord (Char.ofNat n) = true → isBlank (Char.ofNat n) = false := by
      decide +kernel
    have hc := hall c.toNat hascii
    rw [Char.ofNat_toNat] at hc
    exact hc h
  · rw [isWord, if_neg hascii] at h
    exact inRanges_of_disjoint letters_not_blank h

/-! ## Identifiers -/

structure IsIdentifier (cs : List Char) : Prop where
  ne_nil : cs ≠ []
  word : ∀ c ∈ cs, isWord c = true
  start : ∀ c ∈ cs.head?, c.isDigit = false

theorem isIdentifier_iff {cs : List Char} : IsIdentifier cs ↔
    cs ≠ [] ∧ cs.all isWord = true ∧ cs.head?.any Char.isDigit = false := by
  rw [List.all_eq_true, Option.any_eq_false]
  exact ⟨fun h => ⟨h.ne_nil, h.word, h.start⟩, fun h => ⟨h.1, h.2.1, h.2.2⟩⟩

instance (cs : List Char) : Decidable (IsIdentifier cs) :=
  decidable_of_iff _ isIdentifier_iff.symm

/-- The text ends with a word in front of which no word character stands. -/
def EndsInWord (word cs : List Char) : Prop :=
  ∃ front, cs = front ++ word ∧ ∀ c ∈ front.getLast?, isWord c = false

/-- The text ends with a word that goes on in front of the given one. -/
def EndsInLonger (word cs : List Char) : Prop :=
  ∃ front c, cs = front ++ c :: word ∧ isWord c = true

variable {word cs : List Char}

theorem EndsInLonger.suffix (h : EndsInLonger word cs) : word <:+ cs := by
  obtain ⟨front, c, rfl, -⟩ := h
  exact ⟨front ++ [c], by simp⟩

/-- What stands in front of a word at the end tells whether the word is longer. -/
theorem endsInWord_iff_of_suffix (h : word <:+ cs) :
    EndsInWord word cs ↔ ¬ EndsInLonger word cs := by
  obtain ⟨front, rfl⟩ := h
  constructor
  · rintro ⟨front', heq, hfront⟩ ⟨longer, c, hlonger, hc⟩
    obtain rfl := List.append_cancel_right heq
    rw [show longer ++ c :: word = (longer ++ [c]) ++ word by simp] at hlonger
    obtain rfl := List.append_cancel_right hlonger
    have hc' := hfront c (by simp)
    rw [hc] at hc'
    cases hc'
  · refine fun hnot => ⟨front, rfl, fun c hc => ?_⟩
    rw [← Bool.not_eq_true]
    intro hword
    obtain ⟨longer, rfl⟩ := List.getLast?_eq_some_iff.1 hc
    exact hnot ⟨longer, c, by simp, hword⟩

theorem endsInWord_space (word cs : List Char) : EndsInWord word (cs ++ ' ' :: word) := by
  refine ⟨cs ++ [' '], by simp, fun c hc => ?_⟩
  rw [List.getLast?_concat] at hc
  obtain rfl := Option.some.inj hc
  decide

end DoxPages.Text
