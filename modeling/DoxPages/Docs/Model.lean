import DoxPages.Source.Model

/-!
# Documentation pages

What a page shows: a compound with its overloads, each a group of declarations
under one name, and the sections that list them. Sections name overloads by their
position on the page, so an overload has one place of its own.
-/

namespace DoxPages.Docs

/-- A declaration and its rendered texts. -/
structure Member where
  source : Source.Member
  brief : String := ""
  details : String := ""
  summary : String := ""
  prototype : String := ""
  deriving Repr, Inhabited

namespace Member

def name (m : Member) : String := m.source.name

def line (m : Member) : Int := m.source.line

end Member

/-- The declarations of a compound that share a display name. -/
structure Overload where
  name : String
  anchor : String := "#"
  summary : String := ""
  line : Int := 0
  members : List Member := []
  deriving Repr, Inhabited

/-- A titled list of overloads, by position. -/
structure Section where
  title : String
  line : Int := 0
  overloads : List Nat := []
  deriving DecidableEq, Repr, Inhabited

/-- A base class, with its page if it has one. -/
structure Base where
  name : String
  access : String
  page : Option String := none
  deriving DecidableEq, Repr, Inhabited

structure Compound where
  kind : String
  scope : String
  typeName : String
  page : String
  scopeAlias : Option String := none
  prototype : String := ""
  brief : String := ""
  details : String := ""
  summary : String := ""
  sections : List Section := []
  overloads : List Overload := []
  bases : List Base := []
  header : String := ""
  deriving Repr, Inhabited

namespace Compound

/-- The namespace as shown to readers: the alias if one is configured. -/
def displayScope (c : Compound) : String :=
  match c.scopeAlias with
  | none | some "" => c.scope
  | some name => name

def overload? (c : Compound) (name : String) : Option Overload :=
  c.overloads.find? fun o => o.name = name

/-- The overloads a section lists. -/
def listed (c : Compound) (s : Section) : List Overload :=
  s.overloads.filterMap fun i => c.overloads[i]?

end Compound

end DoxPages.Docs
