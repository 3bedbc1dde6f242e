import DoxPages.Text.Basic

/-!
# Scanning a text from left to right

A finder looks at the rest of a text and at the character before it, and answers
with a find and its length in characters. `split` takes the leftmost find, goes
on behind it, and keeps the gaps: gaps and finds together are the whole text.
-/

namespace DoxPages.Text

/-- A find of length zero counts as none. -/
abbrev Finder (α : Type) := Option Char → List Char → Option (α × Nat)

/-- A text cut at the finds of a scan. -/
inductive Split (α : Type) where
  | last (gap : List Char)
  | hit (gap : List Char) (found : α) (rest : Split α)
  deriving Repr

namespace Split

variable {α : Type}

/-- Puts a character in front of the first gap. -/
def cons (c : Char) : Split α → Split α
  | last gap => last (c :: gap)
  | hit gap found rest => hit (c :: gap) found rest

/-- Writes the gaps with `f` and the finds with `g`, in order. -/
def write (f : List Char → List Char) (g : α → List Char) : Split α → List Char
  | last gap => f gap
  | hit gap found rest => f gap ++ g found ++ rest.write f g

/-- The finds in order. -/
def finds : Split α → List α
  | last _ => []
  | hit _ found rest => found :: rest.finds

/-- The gaps in order; one more than there are finds. -/
def gaps : Split α → List (List Char)
  | last gap => [gap]
  | hit gap _ rest => gap :: rest.gaps

theorem write_cons_id (c : Char) (g : α → List Char) (s : Split α) :
    (s.cons c).write id g = c :: s.write id g := by
  cases s <;> simp [cons, write]

end Split

variable {α : Type}

/-- Cuts a text at the leftmost finds; `prev` is the character before the text. -/
def split (find : Finder α) (prev : Option Char) : List Char → Split α
  | [] => .last []
  | c :: cs =>
    match find prev (c :: cs) with
    | some (found, n + 1) => .hit [] found (split find (c :: cs)[n]? (cs.drop n))
    | _ => (split find (some c) cs).cons c
termination_by cs => cs.length

/-- Gaps and finds give back the text if each find is written as what it took. -/
theorem split_write (find : Finder α) (text : α → List Char)
    (h : ∀ prev cs a n, find prev cs = some (a, n) → text a = cs.take n) :
    ∀ (prev : Option Char) (cs : List Char), (split find prev cs).write id text = cs := by
  intro prev cs
  fun_induction split find prev cs with
  | case1 => rfl
  | case2 prev c cs found n hf ih =>
    simp [Split.write, ih, h _ _ _ _ hf]
  | case3 prev c cs _ ih => rw [Split.write_cons_id, ih]

end DoxPages.Text
