import DoxPages.Text.Basic

/-!
# Blank characters

A character is blank if it separates words: the white space of Unicode with the
four information separators. Stripping removes blanks at the ends only.
-/

namespace DoxPages.Text

def blankRanges : List (Nat × Nat) :=
  [(9, 13), (28, 32), (133, 133), (160, 160), (5760, 5760), (8192, 8202), (8232, 8233),
   (8239, 8239), (8287, 8287), (12288, 12288)]

def isBlank (c : Char) : Bool := inRanges blankRanges c

/-- The text without blanks at either end. -/
def strip : List Char → List Char := trim isBlank

/-- The text without blanks at its end. -/
def stripRight : List Char → List Char := trimRight isBlank

/-- Whether a text holds no character but blanks. -/
def allBlank (cs : List Char) : Bool := cs.all isBlank

theorem allBlank_cons {c : Char} {cs : List Char} :
    allBlank (c :: cs) = true ↔ isBlank c = true ∧ allBlank cs = true := by
  rw [allBlank, List.all_cons, Bool.and_eq_true]
  rfl

/-- Every run of blanks written as one space. -/
def collapseBlanks : List Char → List Char
  | [] => []
  | c :: cs =>
    if isBlank c then
      match cs with
      | [] => [' ']
      | d :: _ => if isBlank d then collapseBlanks cs else ' ' :: collapseBlanks cs
    else c :: collapseBlanks cs

end DoxPages.Text
