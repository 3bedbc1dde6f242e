import DoxPages.Text.Basic

/-!
# Paths

A path is its leading slashes (none, one, or exactly two) and its components.
Reading one drops empty and `.` components; `..` stays until the path is
resolved against a directory.

A component may be any text here. One that holds a NUL character names nothing on a real
system, where resolving it breaks off; that outcome is left out, and `resolve` is total.
-/

namespace DoxPages

structure Path where
  slashes : Nat := 0
  parts : List String := []
  deriving DecidableEq, Repr, Inhabited

namespace Path

def leadingSlashes : List Char → Nat
  | '/' :: '/' :: '/' :: _ => 1
  | '/' :: '/' :: _ => 2
  | '/' :: _ => 1
  | _ => 0

def ofString (s : String) : Path where
  slashes := leadingSlashes s.toList
  parts := ((Text.splitChar '/' s.toList).map String.ofList).filter fun p => p ≠ "" && p ≠ "."

def toString (p : Path) : String :=
  if p.slashes = 0 ∧ p.parts = [] then "."
  else String.ofList (List.replicate p.slashes '/') ++ Text.joinWith "/" p.parts

instance : ToString Path := ⟨toString⟩

def isAbsolute (p : Path) : Bool := p.slashes ≠ 0

/-- The second path as seen from the first; an absolute one stands alone. -/
def join (p q : Path) : Path :=
  if q.isAbsolute then q else { p with parts := p.parts ++ q.parts }

instance : Div Path := ⟨join⟩

/-- The last component, empty for a bare root. -/
def name (p : Path) : String := p.parts.getLast?.getD ""

/-- The path without its last component. -/
def parent (p : Path) : Path := { p with parts := p.parts.dropLast }

/-- The name without its last extension; a leading or closing dot starts none. -/
def stem (p : Path) : String :=
  let cs := p.name.toList
  let ext := Text.afterLast '.' cs
  if ext.length + 1 < cs.length ∧ ext ≠ [] then String.ofList (cs.take (cs.length - ext.length - 1))
  else p.name

/-- What follows the last dot of the name, if there is a dot. -/
def extension (p : Path) : String :=
  if '.' ∈ p.name.toList then Text.onChars (Text.afterLast '.') p.name else ""

/-- Takes `..` back one component; above the root there is only the root. -/
def collapse : List String → List String :=
  List.foldl (fun done p => if p = ".." then done.dropLast else done ++ [p]) []

/-- The path from the root without `..`, relative paths seen from `here`. -/
def resolve (here p : Path) : Path where
  slashes := 1
  parts := collapse (here.join p).parts

end Path

end DoxPages
