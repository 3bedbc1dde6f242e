import DoxPages.Assoc
import DoxPages.Text.Blank
import DoxPages.Text.LetterCase
import DoxPages.Text.Word

/-!
# Heading slugs

The slug of a heading is its text in lower case without punctuation, with hyphens
for spaces. A slugger gives out each slug once: a slug that is taken gets the
least number behind it that makes it free.
-/

namespace DoxPages

open Text

def headingSlug (s : String) : String :=
  onChars (fun cs =>
    replaceChar ' ' ['-'] ((lower (strip cs)).filter fun c => isWord c || c == '-' || c == ' ')) s

def numberedSlug (slug : String) (n : Nat) : String := slug ++ "-" ++ toString n

/-- The slugs given out so far, each with the last number tried behind it. -/
structure Slugger where
  taken : List (String × Nat) := []
  deriving DecidableEq, Repr, Inhabited

namespace Slugger

def isTaken (s : Slugger) (slug : String) : Bool := Assoc.hasKey slug s.taken

/-- The first number from `n` on, among `fuel` many, that makes a slug free. -/
def freeNumber (s : Slugger) (slug : String) : (fuel n : Nat) → Nat
  | 0, n => n
  | fuel + 1, n =>
    if s.isTaken (numberedSlug slug n) then s.freeNumber slug fuel (n + 1) else n

/-- A slug for a heading that was not given out before. -/
def slug (s : Slugger) (heading : String) : String × Slugger :=
  let h := headingSlug heading
  match s.taken.lookup h with
  | none => (h, ⟨Assoc.put h 0 s.taken⟩)
  | some last =>
    let n := s.freeNumber h s.taken.length (last + 1)
    let fresh := numberedSlug h n
    (fresh, ⟨Assoc.put fresh 0 (Assoc.put h n s.taken)⟩)

/-- Slugs for a list of headings, in order. -/
def slugs (s : Slugger) : List String → List String
  | [] => []
  | h :: hs => let (slug, s) := s.slug h; slug :: s.slugs hs

end Slugger

end DoxPages
