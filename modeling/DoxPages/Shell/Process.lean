import DoxPages.Assoc
import DoxPages.Files.Tree
import DoxPages.Shell.Command

/-!
# Shell processes

A process has the files, a directory, parameters, an input, and what it has
written to its two outputs. Words are expanded into fields: values of parameters
that are not quoted are cut at blanks, and fields with patterns become the names
that match.
-/

namespace DoxPages.Shell

structure Process where
  tree : Tree
  dir : Location
  name : String
  args : List String
  vars : List (String × String) := []
  input : List UInt8 := []
  out : List UInt8 := []
  err : List UInt8 := []
  status : Nat := 0
  /-- The status with which the process has ended, negative for a signal. -/
  ended : Option Int := none
  /-- Whether a command that fails ends the process. -/
  strict : Bool := false

def bytes (s : String) : List UInt8 := s.toUTF8.toList

def ofBytes (bs : List UInt8) : String := (String.fromUTF8? ⟨bs.toArray⟩).getD ""

namespace Process

def say (p : Process) (s : String) : Process := { p with out := p.out ++ bytes s }

/-- Writes a complaint and sets the status. -/
def fail (p : Process) (complaint : String) (status : Nat := 1) : Process :=
  { p with err := p.err ++ bytes (complaint ++ "\n"), status }

def succeed (p : Process) : Process := { p with status := 0 }

def locate? (p : Process) (path : String) : Option Location :=
  p.tree.locate? p.dir (Path.ofString path)

def read? (p : Process) (path : String) : Option String := p.tree.read? p.dir (Path.ofString path)

def isDir (p : Process) (path : String) : Bool := ((p.locate? path).map p.tree.isDir).getD false

def exists? (p : Process) (path : String) : Bool := p.tree.exists? p.dir (Path.ofString path)

/-- The value of a parameter. -/
def value (p : Process) (name : String) : String :=
  match name with
  | "#" => toString p.args.length
  | "?" => toString p.status
  | "$" => "1"
  | "0" => p.name
  | "@" | "*" => Text.joinWith " " p.args
  | "PWD" => (Path.mk 1 p.dir).toString
  | _ =>
    match name.toNat? with
    | some n => p.args[n - 1]?.getD ""
    | none => (p.vars.lookup name).getD ""

end Process

/-! ## Fields -/

/-- A part of an expanded word. -/
inductive Atom where
  | char (c : Char) (quoted : Bool)
  /-- Keeps a field that is otherwise empty. -/
  | mark
  | cut
  deriving DecidableEq, Repr

def isSpace (c : Char) : Bool := isBlankChar c || c == '\n'

/-- A value that is put into a word. -/
def atoms (quoted : Bool) (s : String) : List Atom :=
  if quoted then .mark :: s.toList.map (.char · true)
  else s.toList.map fun c => if isSpace c then .cut else .char c false

def trimNewlines (s : String) : String := Text.onChars (Text.trimRight (· == '\n')) s

/-- The runs of atoms between cuts; an empty one is no field. -/
def fields (as : List Atom) : List (List Atom) :=
  let (last, done) := as.foldr (fun a (field, done) =>
    if a = .cut then ([], if field = [] then done else field :: done) else (a :: field, done))
    (([] : List Atom), ([] : List (List Atom)))
  if last = [] then done else last :: done

def fieldText (f : List Atom) : String :=
  String.ofList (f.filterMap fun a =>
    match a with
    | .char c _ => some c
    | _ => none)

/-! ## Patterns -/

/-- What one place of a name must be. -/
inductive Pattern where
  | char (c : Char)
  | one
  | many
  | oneOf (negated : Bool) (ranges : List (Char × Char))
  deriving Repr

def bracket : List Char → List (Char × Char)
  | a :: '-' :: b :: cs => (a, b) :: bracket cs
  | a :: cs => (a, a) :: bracket cs
  | [] => []

/-- The pattern of a component; only what is not quoted has a meaning of its own. -/
def patternOf : (fuel : Nat) → List Atom → List Pattern
  | 0, _ => []
  | fuel + 1, as =>
    match as with
    | .char '*' false :: as => .many :: patternOf fuel as
    | .char '?' false :: as => .one :: patternOf fuel as
    | .char '[' false :: as =>
      let inner := as.takeWhile (· ≠ .char ']' false)
      if inner.length < as.length ∧ inner ≠ [] then
        let cs := (fieldText inner).toList
        let p := match cs with
          | '!' :: cs => Pattern.oneOf true (bracket cs)
          | cs => Pattern.oneOf false (bracket cs)
        p :: patternOf fuel (as.drop (inner.length + 1))
      else .char '[' :: patternOf fuel as
    | .char c _ :: as => .char c :: patternOf fuel as
    | _ :: as => patternOf fuel as
    | [] => []

def Pattern.isChar : Pattern → Bool
  | char _ => true
  | _ => false

def matchesPattern : List Pattern → List Char → Bool
  | [], cs => cs.isEmpty
  | .many :: ps, [] => matchesPattern ps []
  | .many :: ps, c :: cs => matchesPattern ps (c :: cs) || matchesPattern (.many :: ps) cs
  | .char d :: ps, c :: cs => c == d && matchesPattern ps cs
  | .one :: ps, _ :: cs => matchesPattern ps cs
  | .oneOf negated ranges :: ps, c :: cs =>
    (negated != ranges.any fun r => r.1 ≤ c && c ≤ r.2) && matchesPattern ps cs
  | _ :: _, [] => false
termination_by ps cs => ps.length + cs.length

/-- The names in a directory, in order. -/
def names (t : Tree) (dir : Location) : List String :=
  let inDir := t.entries.filterMap fun (l, _) =>
    if l ≠ [] ∧ l.dropLast = dir then l.getLast? else none
  inDir.mergeSort fun a b => a ≤ b

/-- The components of a field. -/
def components (f : List Atom) : List (List Atom) :=
  f.foldr (fun a parts =>
    match a, parts with
    | .char '/' _, parts => [] :: parts
    | a, part :: parts => (a :: part) :: parts
    | a, [] => [[a]]) [[]]

/-- The paths that match components from a directory on. -/
def glob (t : Tree) : (dir : Location) → (written : List String) → List (List Atom) →
    List (List String)
  | _, written, [] => [written]
  | dir, written, part :: parts =>
    let ps := patternOf (part.length + 1) part
    if ps.all Pattern.isChar then
      let name := fieldText part
      let next := if name = "" ∨ name = "." then some dir else t.follow? dir [name]
      match next with
      | some next => if parts = [] ∧ (t.entry? next).isNone then []
        else glob t next (written ++ [name]) parts
      | none => []
    else
      let hidden := (fieldText part).toList.head? == some '.'
      (names t dir).flatMap fun name =>
        if matchesPattern ps name.toList ∧ (hidden ∨ name.toList.head? ≠ some '.') then
          glob t (dir ++ [name]) (written ++ [name]) parts
        else []

/-- The texts that a field stands for. -/
def globbed (p : Process) (f : List Atom) : List String :=
  let parts := components f
  if parts.all fun part => (patternOf (part.length + 1) part).all Pattern.isChar then [fieldText f]
  else
    let start : Location := if (fieldText f).toList.head? = some '/' then [] else p.dir
    match glob p.tree start [] parts with
    | [] => [fieldText f]
    | found => found.map (Text.joinWith "/")

end DoxPages.Shell
