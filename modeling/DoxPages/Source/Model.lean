import DoxPages.Markup.Node

/-!
# Documented declarations

The compounds of a C++ program as their documentation describes them: base
classes, and members in titled sections. Names, kinds and access words are kept
as they were written.
-/

namespace DoxPages.Source

/-- A template parameter. -/
structure Param where
  type : Node
  declname : String := ""
  defval : Option Node := none
  deriving Repr, Inhabited

structure BaseRef where
  name : String
  access : String
  virt : String := "non-virtual"
  refid : Option String := none
  deriving DecidableEq, Repr, Inhabited

/-- One declaration inside a compound; `none` for `params` is no template. -/
structure Member where
  id : String := ""
  kind : String := ""
  name : String := ""
  access : String := "public"
  line : Int := 0
  file : String := ""
  static : Bool := false
  virt : String := "non-virtual"
  explicit : Bool := false
  type : Node := .empty
  args : String := ""
  params : Option (List Param) := none
  brief : Node := .empty
  detailed : Node := .empty
  deriving Repr, Inhabited

/-- Members as they were grouped in the source. -/
structure Section where
  kind : String
  header : String := ""
  members : List Member := []
  deriving Repr, Inhabited

/-- A class, struct or union. -/
structure Compound where
  id : String
  kind : String
  name : String
  file : String := ""
  line : Int := 0
  bases : List BaseRef := []
  sections : List Section := []
  params : Option (List Param) := none
  brief : Node := .empty
  detailed : Node := .empty
  deriving Repr, Inhabited

/-- All compounds, each under its id. -/
abbrev Model := List (String × Compound)

end DoxPages.Source
