import DoxPages.Config.Error

/-!
# Section kinds

A table sends every kind of member section to a title, or says that the section
is not shown, or that it carries a title of its own.
-/

namespace DoxPages

def notVisible : String := "not visible"

def userDefined : String := "user defined"

def publicMembers : String := "Public members"

def protectedMembers : String := "Protected members"

def standaloneMembers : String := "Standalone members"

def otherMembers : String := "Other members"

def defaultSectionKinds : List (String × String) := [
  ("user-defined", userDefined),
  ("public-type", notVisible),
  ("public-func", publicMembers),
  ("public-attrib", publicMembers),
  ("public-slot", publicMembers),
  ("signal", publicMembers),
  ("dcop-func", publicMembers),
  ("property", publicMembers),
  ("event", publicMembers),
  ("public-static-func", publicMembers),
  ("public-static-attrib", publicMembers),
  ("protected-type", notVisible),
  ("protected-func", protectedMembers),
  ("protected-attrib", protectedMembers),
  ("protected-slot", protectedMembers),
  ("protected-static-func", protectedMembers),
  ("protected-static-attrib", protectedMembers),
  ("package-type", notVisible),
  ("package-func", notVisible),
  ("package-attrib", notVisible),
  ("package-static-func", notVisible),
  ("package-static-attrib", notVisible),
  ("private-type", notVisible),
  ("private-func", notVisible),
  ("private-attrib", notVisible),
  ("private-slot", notVisible),
  ("private-static-func", notVisible),
  ("private-static-attrib", notVisible),
  ("friend", notVisible),
  ("related", standaloneMembers),
  ("define", notVisible),
  ("prototype", notVisible),
  ("typedef", notVisible),
  ("enum", notVisible),
  ("func", notVisible),
  ("var", notVisible),
  ("interfaces", notVisible),
  ("services", notVisible)]

/-- The title a table gives to a section kind. -/
def classifySection (table : List (String × String)) (kind : String) : Except ConfigError String :=
  match table.lookup kind with
  | some title => .ok title
  | none => .error (.unknownSectionKind kind)

/-- The title a section is shown under; `none` hides it. -/
def shownTitle? (title header : String) : Option String :=
  if title = notVisible then none
  else if title = userDefined then some (if header = "" then otherMembers else header)
  else some title

end DoxPages
