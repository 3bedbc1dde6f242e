import DoxPages.Files.Path

/-!
# Trees of files

Directories and text files by their components from the root. A path is followed
one component at a time; everything it passes through must be a directory, and
`..` goes back from the directory reached.

No entry has a NUL character or more than `nameLimit` bytes in its name. A real system does not
answer what lies at such a name but breaks off; that outcome is left out, and `find?` and
`exists?` find nothing there.
-/

namespace DoxPages

inductive Entry where
  | dir
  | file (text : String) (executable : Bool)
  deriving DecidableEq, Repr, Inhabited

/-- The place of an entry: components from the root, none of them `..`. -/
abbrev Location := List String

structure Tree where
  entries : List (Location × Entry) := []
  deriving DecidableEq, Repr, Inhabited

namespace Tree

def entry? (t : Tree) (loc : Location) : Option Entry :=
  if loc = [] then some .dir else t.entries.lookup loc

def isDir (t : Tree) (loc : Location) : Bool := t.entry? loc = some .dir

/-- Longer names cannot be given to a file. -/
def nameLimit : Nat := 255

/-- Where a path leads from a location. -/
def follow? (t : Tree) (loc : Location) : List String → Option Location
  | [] => some loc
  | c :: cs =>
    if t.isDir loc ∧ c.utf8ByteSize ≤ nameLimit then
      t.follow? (if c = ".." then loc.dropLast else loc ++ [c]) cs
    else none

/-- Puts an entry in its place, over the one that is there. -/
def set (t : Tree) (loc : Location) (e : Entry) : Tree :=
  if (t.entries.lookup loc).isSome then
    ⟨t.entries.map fun (l, old) => if l = loc then (l, e) else (l, old)⟩
  else ⟨t.entries ++ [(loc, e)]⟩

/-- Where a path leads, relative paths seen from `here`. -/
def locate? (t : Tree) (here : Location) (p : Path) : Option Location :=
  t.follow? (if p.isAbsolute then [] else here) p.parts

def find? (t : Tree) (here : Location) (p : Path) : Option Entry :=
  (t.locate? here p).bind t.entry?

def exists? (t : Tree) (here : Location) (p : Path) : Bool := (t.find? here p).isSome

/-- The text of a file. -/
def read? (t : Tree) (here : Location) (p : Path) : Option String :=
  match t.find? here p with
  | some (.file text _) => some text
  | _ => none

/-- Writes a file, new or in place of its former text. -/
def write? (t : Tree) (here : Location) (p : Path) (text : String) : Option Tree := do
  let loc ← t.locate? here p
  match t.entry? loc with
  | some .dir => none
  | some (.file _ executable) => some (t.set loc (.file text executable))
  | none => some (t.set loc (.file text false))

/-- Makes the directories along a path, as far as they are missing, and says whether
all of them are there then. -/
def makeDirs (t : Tree) (loc : Location) : List String → Tree × Bool
  | [] => (t, t.isDir loc)
  | c :: cs =>
    match t.follow? loc [c] with
    | none => (t, false)
    | some next =>
      match t.entry? next with
      | some (.file ..) => (t, false)
      | some .dir => t.makeDirs next cs
      | none => (t.set next .dir).makeDirs next cs

/-- The files that are new or have another text than before. -/
def changes (before after : Tree) : List (Location × String) :=
  after.entries.filterMap fun (l, e) =>
    match e, before.entry? l with
    | .file text _, some (.file old _) => if text = old then none else some (l, text)
    | .file text _, _ => some (l, text)
    | .dir, _ => none

end Tree

end DoxPages
