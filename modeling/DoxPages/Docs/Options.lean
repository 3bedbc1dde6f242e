import DoxPages.Config.Value
import DoxPages.Docs.Overload
import DoxPages.Docs.SectionKind
import DoxPages.Links.Table

/-!
# Settings of one documentation set
-/

namespace DoxPages

def defaultCompoundKinds : List String := ["class", "struct", "union"]

structure Options where
  pagePrefix : String := ""
  compoundKinds : List String := defaultCompoundKinds
  /-- The alias of each namespace that has one, which need not be a text. -/
  aliases : List (String × Scalar) := []
  sectionKinds : List (String × String) := defaultSectionKinds
  renames : List (String × String) := defaultRenames
  std : LinkTable := .cppReference
  idl : LinkTable := {}
  deriving DecidableEq, Repr, Inhabited

namespace Options

/-- The alias of a namespace as it is shown. -/
def alias? (o : Options) (scope : String) : Option String :=
  (o.aliases.lookup scope).map fun key => if key.isBlank then "" else key.text

/-- Whether a namespace is shown as a text, by an alias or by itself. -/
def showsText (o : Options) (scope : String) : Bool :=
  match o.aliases.lookup scope with
  | none => true
  | some key => key.isBlank || key.string?.isSome

end Options

end DoxPages
