import DoxPages.Config.Value

/-!
# Checking settings

Every field of the wrong shape is a problem of its own: unknown fields first, then
the known fields group by group.
-/

namespace DoxPages

inductive SettingProblem where
  | unknown (field : String)
  | missing (field : String)
  | mistyped (field expected found : String)
  deriving DecidableEq, Repr

namespace SettingProblem

def message : SettingProblem → String
  | unknown field => s!"{field}: unknown field"
  | missing field => s!"{field}: required field is missing"
  | mistyped field expected found => s!"{field}: expected {expected}, got {found}"

end SettingProblem

namespace Settings

def stringFields : List String := ["input", "output", "prefix", "index"]

def stringListFields : List String := ["projects", "file_patterns", "compound_kinds"]

def stringMapFields : List String := ["sections", "overload_names"]

def linkFields : List String := ["std_type_links", "idl_type_links"]

def aliasField : String := "namespace_aliases"

def knownFields : List String :=
  stringFields ++ stringListFields ++ stringMapFields ++ linkFields ++ [aliasField]

/-- Whether a key is one of the given names. -/
def isOneOf (names : List String) : Scalar → Bool
  | .string s => names.contains s
  | _ => false

def checkString (field : String) (v : Value) : List SettingProblem :=
  if v.isString then [] else [.mistyped field "a string" v.typeName]

def checkStringList (field : String) : Value → List SettingProblem
  | .list items => items.zipIdx.flatMap fun (v, i) => checkString s!"{field}[{i}]" v
  | v => [.mistyped field "a list of strings" v.typeName]

def checkStringMap (field : String) : Value → List SettingProblem
  | .mapping entries => entries.flatMap fun e => checkString s!"{field}.{e.1.text}" e.2
  | v => [.mistyped field "a mapping" v.typeName]

/-- A check of a field that may be missing. -/
def ifGiven (check : Value → List SettingProblem) (v : Option Value) : List SettingProblem :=
  (v.map check).getD []

/-- A check of a field that may be missing or null. -/
def ifNotNull (check : Value → List SettingProblem) (v : Option Value) : List SettingProblem :=
  ifGiven check (v.filter fun v => !v.isNull)

/-- A link table: an address in front, the pages, which must be there, and the operators. -/
def checkLinks (field : String) : Value → List SettingProblem
  | .mapping entries =>
    (entries.filter fun e => !isOneOf ["link_prefix", "link_map", "operator_map"] e.1).map
        (fun e => .unknown s!"{field}.{e.1.text}")
      ++ ifNotNull (checkString s!"{field}.link_prefix") (get? entries "link_prefix")
      ++ (match get? entries "link_map" with
        | none => [.missing s!"{field}.link_map"]
        | some v => checkStringMap s!"{field}.link_map" v)
      ++ ifNotNull (checkStringMap s!"{field}.operator_map") (get? entries "operator_map")
  | v => [.mistyped field "a mapping" v.typeName]

/-- The namespaces under each alias. -/
def checkAliases : Value → List SettingProblem
  | .mapping entries => entries.flatMap fun e => checkStringList s!"{aliasField}.{e.1.text}" e.2
  | v => [.mistyped aliasField "a mapping" v.typeName]

def checkFields (s : Settings) (check : String → Value → List SettingProblem)
    (fields : List String) : List SettingProblem :=
  fields.flatMap fun f => ifGiven (check f) (get? s f)

/-- One problem for every field of the wrong shape. -/
def problems (s : Settings) : List SettingProblem :=
  (s.filter fun e => !isOneOf knownFields e.1).map (fun e => .unknown e.1.text)
    ++ checkFields s checkString stringFields
    ++ checkFields s checkStringList stringListFields
    ++ checkFields s checkStringMap stringMapFields
    ++ ifNotNull checkAliases (get? s aliasField)
    ++ checkFields s checkLinks linkFields

end Settings

end DoxPages
