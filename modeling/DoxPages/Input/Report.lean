import DoxPages.Files.Path

/-!
# Reports of unusable input

A report names what is wrong with a document, the document, and every single
problem in it.
-/

namespace DoxPages

structure Report where
  message : String
  path : Option Path := none
  problems : List String := []
  deriving DecidableEq, Repr, Inhabited

namespace Report

/-- The message with the path behind it, and each problem on a line of its own. -/
def text (r : Report) : String :=
  let head := match r.path with
    | some path => r.message ++ ": " ++ path.toString
    | none => r.message
  Text.joinWith "\n" (head :: r.problems.map ("  - " ++ ·))

end Report

end DoxPages
