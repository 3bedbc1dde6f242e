/-!
# Template argument lists

The argument list at a `<` ends with the `>` that brings the bracket depth back
to zero for the first time.
-/

namespace DoxPages.TemplateArgs

/-- How many characters it takes to close `depth` open brackets. -/
def closing? (depth : Nat) : List Char → Option Nat
  | [] => none
  | c :: cs =>
    if c = '<' then (closing? (depth + 1) cs).map (· + 1)
    else if c = '>' then
      if depth ≤ 1 then some 1 else (closing? (depth - 1) cs).map (· + 1)
    else (closing? depth cs).map (· + 1)

/-- The length of the argument list that a text starts with. -/
def length? : List Char → Option Nat
  | [] => none
  | c :: cs => if c = '<' then (closing? 1 cs).map (· + 1) else none

/-- The position behind the argument list that starts at `start`. -/
def end? (text : List Char) (start : Nat) : Option Nat :=
  (length? (text.drop start)).map (start + ·)

end DoxPages.TemplateArgs
