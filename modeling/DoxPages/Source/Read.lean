import DoxPages.Source.Model
import DoxPages.Text.Numeral
import DoxPages.Text.Quoted

/-!
# Reading declarations from markup trees

What can be read is read with defaults for what is missing; what is wrong is
listed apart, one problem for each fault, in the order of the document.
-/

namespace DoxPages.Source

open Text

inductive ShapeProblem where
  | missingCompoundId
  | missingCompoundName (id : String)
  | missingKind (place : String)
  | missingName (place : String)
  | missingLocation (place : String)
  | badLine (place line : String)
  deriving DecidableEq, Repr

namespace ShapeProblem

def message : ShapeProblem → String
  | missingCompoundId => "compounddef: missing 'id' attribute"
  | missingCompoundName id => s!"compounddef {id}: missing <compoundname>"
  | missingKind place => s!"{place}: missing 'kind' attribute"
  | missingName place => s!"{place}: missing <name>"
  | missingLocation place => s!"{place}: missing <location>"
  | badLine place line => s!"{place}: location line {onChars quoted line} is not an integer"

end ShapeProblem

/-! ## Locations -/

/-- The line an element of a location names, `0` if it has none. -/
def line? (location : Node) : Option Int := int? (location.attr "line" "0").toList

def readFile (n : Node) : String := ((n.first? "location").map fun l => l.attr "file").getD ""

def readLine (n : Node) : Int := ((n.first? "location").bind line?).getD 0

def locationProblems (required : Bool) (place : String) (n : Node) : List ShapeProblem :=
  match n.first? "location" with
  | none => if required then [.missingLocation place] else []
  | some location =>
    match line? location with
    | some _ => []
    | none => [.badLine place (location.attr "line" "0")]

/-! ## Parts -/

def partOf (n : Node) (tag : String) : Node := (n.first? tag).getD .empty

def readParam (n : Node) : Param where
  type := partOf n "type"
  declname := Node.optionalText (n.first? "declname")
  defval := n.first? "defval"

/-- The template parameters; none for a declaration that is no template. -/
def readParams (n : Node) : Option (List Param) :=
  (n.first? "templateparamlist").map fun l => (l.elements "param").map readParam

def readBase (n : Node) : BaseRef where
  name := n.strippedText
  access := n.attr "prot" "public"
  virt := n.attr "virt" "non-virtual"
  refid := (n.attr? "refid").filter (· ≠ "")

def readMember (n : Node) : Member where
  id := n.attr "id"
  kind := n.attr "kind"
  name := Node.optionalText (n.first? "name")
  access := n.attr "prot" "public"
  line := readLine n
  file := readFile n
  static := n.attr "static" = "yes"
  virt := n.attr "virt" "non-virtual"
  explicit := n.attr "explicit" = "yes"
  type := partOf n "type"
  args := Node.optionalText (n.first? "argsstring")
  params := readParams n
  brief := partOf n "briefdescription"
  detailed := partOf n "detaileddescription"

/-- A member is known by its name, if it has one, behind its place. -/
def memberProblems (place : String) (n : Node) : List ShapeProblem :=
  let name := Node.optionalText (n.first? "name")
  if name = "" then .missingName place :: locationProblems true place n
  else locationProblems true s!"{place} ({name})" n

def readSection (n : Node) : Section where
  kind := n.attr "kind"
  header := Node.optionalText (n.first? "header")
  members := (n.elements "memberdef").map readMember

def sectionProblems (place : String) (n : Node) : List ShapeProblem :=
  (if n.attr "kind" = "" then [.missingKind place] else [])
    ++ (n.elements "memberdef").zipIdx.flatMap fun (m, i) =>
      memberProblems s!"{place}/memberdef[{i}]" m

/-! ## Compounds -/

def readCompound (n : Node) : Compound where
  id := n.attr "id"
  kind := n.attr "kind"
  name := Node.optionalText (n.first? "compoundname")
  file := readFile n
  line := readLine n
  bases := (n.elements "basecompoundref").map readBase
  sections := (n.elements "sectiondef").map readSection
  params := readParams n
  brief := partOf n "briefdescription"
  detailed := partOf n "detaileddescription"

def compoundProblems (n : Node) : List ShapeProblem :=
  let id := n.attr "id"
  let name := Node.optionalText (n.first? "compoundname")
  let label := if name = "" then id else name
  (if id = "" then [.missingCompoundId] else [])
    ++ (if name = "" then [.missingCompoundName id] else [])
    ++ locationProblems false s!"compounddef {id}" n
    ++ (n.elements "sectiondef").zipIdx.flatMap fun (s, i) =>
      sectionProblems s!"{label}/sectiondef[{i}]" s

/-! ## The index -/

/-- A compound as the index lists it. -/
structure Entry where
  refid : String
  kind : String
  name : String
  deriving DecidableEq, Repr, Inhabited

inductive EntryProblem where
  | missingRefid (index : Nat)
  | missingKind (index : Nat)
  deriving DecidableEq, Repr

namespace EntryProblem

def message : EntryProblem → String
  | missingRefid i => s!"compound[{i}]: missing 'refid' attribute"
  | missingKind i => s!"compound[{i}]: missing 'kind' attribute"

end EntryProblem

def readEntry (n : Node) : Entry where
  refid := n.attr "refid"
  kind := n.attr "kind"
  name := Node.optionalText (n.first? "name")

def readEntries (n : Node) : List Entry := (n.elements "compound").map readEntry

def entryProblems (n : Node) : List EntryProblem :=
  (n.elements "compound").zipIdx.flatMap fun (c, i) =>
    (if c.attr "refid" = "" then [.missingRefid i] else [])
      ++ if c.attr "kind" = "" then [.missingKind i] else []

end DoxPages.Source
