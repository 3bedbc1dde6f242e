import DoxPages.Docs.Model
import DoxPages.Docs.Overload
import DoxPages.Docs.SectionKind
import DoxPages.Docs.Slug

/-!
# Grouping members into overloads

Members are taken in the order of the source. The first member of a name opens an
overload and puts it into the section that is being read; later ones join it,
wherever they stand. Once all are in, everything is put in order: members,
overloads and sections by line, the flat list of overloads by name.
-/

namespace DoxPages.Docs

open Text

/-- The members read so far. -/
structure Grouping where
  /-- Overloads in order of first sight. -/
  overloads : List Overload := []
  /-- The names of the overloads under each title, in order of first sight. -/
  titles : List (String × List String) := []
  /-- Every member read and the name it went under. -/
  visited : List (Source.Member × String) := []
  deriving Repr, Inhabited

namespace Grouping

/-- The member at the end of an overload. -/
def join (m : Source.Member) (o : Overload) : Overload :=
  { o with members := o.members ++ [⟨m, "", "", "", ""⟩], line := min o.line m.line }

def hasOverload (g : Grouping) (name : String) : Bool := g.overloads.any fun o => o.name = name

/-- Adds a member under a name, in the section of a given title. -/
def addMember (title name : String) (m : Source.Member) (g : Grouping) : Grouping :=
  let visited := g.visited ++ [(m, name)]
  if g.hasOverload name then
    { g with
      overloads := g.overloads.map fun o => if o.name = name then join m o else o
      visited }
  else
    { overloads := g.overloads ++ [join m { name, line := m.line }]
      titles := Assoc.adjust title (· ++ [name]) g.titles
      visited }

/-- Opens the section of a title unless it is there. -/
def openTitle (title : String) (g : Grouping) : Grouping :=
  if Assoc.hasKey title g.titles then g else { g with titles := g.titles ++ [(title, [])] }

/-- Reads one section under its title; `nameOf` gives the display name of a member. -/
def addSection (nameOf : String → String) (title : String) (members : List Source.Member)
    (g : Grouping) : Grouping :=
  members.foldl (fun g m => g.addMember title (nameOf m.name) m) (g.openTitle title)

/-- Reads sections up to the first of an unknown kind. -/
def addSections (kinds : List (String × String)) (nameOf : String → String) :
    List Source.Section → Grouping → Grouping × Option ConfigError
  | [], g => (g, none)
  | s :: ss, g =>
    match classifySection kinds s.kind with
    | .error e => (g, some e)
    | .ok title =>
      match shownTitle? title s.header with
      | none => addSections kinds nameOf ss g
      | some title => addSections kinds nameOf ss (g.addSection nameOf title s.members)

/-! ## Putting everything in order -/

def sortMembers (o : Overload) : Overload :=
  { o with members := o.members.mergeSort fun a b => decide (a.line ≤ b.line) }

/-- Whether a section holds deprecated members; such sections come last. -/
def isDeprecated (title : String) : Bool := hasInfix "deprecated".toList (lower title.toList)

def sectionLe (a b : Section) : Bool :=
  match isDeprecated a.title, isDeprecated b.title with
  | false, true => true
  | true, false => false
  | _, _ => decide (a.line ≤ b.line)

/-- The overloads by name, each with an anchor of its own. -/
def anchored (os : List Overload) : List Overload :=
  let sorted := os.mergeSort fun a b => decide (a.name ≤ b.name)
  (sorted.zip (({} : Slugger).slugs (sorted.map (·.name)))).map fun (o, slug) =>
    { o with anchor := "#" ++ slug }

/-- The section of a title; `flat` is the ordered list its positions point into. -/
def sectionOf (flat : List Overload) (title : String) (names : List String) : Section :=
  let listed := names.filterMap fun name => flat.zipIdx.find? fun (o, _) => o.name = name
  let sorted := listed.mergeSort fun a b => decide (a.1.line ≤ b.1.line)
  { title, line := (sorted.head?.map (·.1.line)).getD 0, overloads := sorted.map (·.2) }

def sections (g : Grouping) (flat : List Overload) : List Section :=
  let shown := g.titles.filter fun t => t.2 ≠ []
  (shown.map fun t => sectionOf flat t.1 t.2).mergeSort sectionLe

/-- The overloads and sections of a page, in order. -/
def ordered (g : Grouping) : List Overload × List Section :=
  let flat := anchored (g.overloads.map sortMembers)
  (flat, g.sections flat)

end Grouping

end DoxPages.Docs
