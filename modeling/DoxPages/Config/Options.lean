import DoxPages.Config.Error
import DoxPages.Config.Value
import DoxPages.Docs.Options

/-!
# Options from settings

Tables in the settings are laid over the default ones. Settings that are absent
or blank leave the default. Any other shape than that which checked settings have
is an error here, unless it can be used in the same way.
-/

namespace DoxPages

/-- Why no options can be made of settings. -/
inductive OptionsError where
  | config (e : ConfigError)
  | shape (e : ShapeError)
  deriving DecidableEq, Repr

/-- A part of a link table, with an address for each name. -/
def LinkTable.addresses (field name : String) (links : Settings) :
    Except OptionsError (List (String × String)) :=
  let table := field ++ "." ++ name
  match Settings.given? links name with
  | none => .ok []
  | some (.mapping es) =>
    let bad := (es.filter fun e => !e.2.isString).map Prod.fst
    if bad = [] then .ok (Settings.texts es)
    else match bad.mapM Scalar.string? with
      | some names => .error (.config (.badAddresses table names))
      | none => .error (.shape (.noName table))
  | some _ => .error (.shape (.noMapping table))

/-- A link table from its setting; `field` names it in errors. -/
def LinkTable.ofValue (field : String) : Value → Except OptionsError LinkTable
  | .mapping links => do
    let pages ← addresses field "link_map" links
    let operators ← addresses field "operator_map" links
    return { base := ((Settings.given? links "link_prefix").map Value.text).getD ""
             pages, operators }
  | v => if v.isBlank then .ok {} else .error (.shape (.noMapping field))

namespace Options

def itemsOf (field : String) (v : Value) : Except OptionsError (List Value) :=
  match v.items? with
  | some items => .ok items
  | none => .error (.shape (.noItems field))

/-- The namespaces under an alias; a key that is no text is that of no namespace. -/
def scopesOf (field : String) (v : Value) : Except OptionsError (List String) := do
  let items ← itemsOf field v
  if items.all Value.isKey then return items.filterMap Value.string?
  else throw (.shape (.noKey field))

/-- The alias of each namespace, from the namespaces of each alias; the last one counts. -/
def aliasesOf (s : Settings) : Except OptionsError (List (String × Scalar)) :=
  let field := "namespace_aliases"
  match Settings.given? s field with
  | none => .ok []
  | some (.mapping es) => do
    let named ← es.mapM fun e => do
      return (← scopesOf field e.2).map fun scope => (scope, e.1)
    return Assoc.putAll [] named.flatten
  | some _ => .error (.shape (.noMapping field))

/-- A key and a value out of what holds nothing else. -/
def entryOf (field : String) (v : Value) : Except OptionsError (Value × Value) := do
  match ← itemsOf field v with
  | [key, value] => if key.isKey then return (key, value) else throw (.shape (.noKey field))
  | _ => throw (.shape (.noPair field))

/-- The entries that a value lays over a table. -/
def entriesOf (field : String) : Value → Except OptionsError (List (Value × Value))
  | .mapping es => .ok (es.map fun e => (.scalar e.1, e.2))
  | v => do (← itemsOf field v).mapM (entryOf field)

/-- An entry of a table of texts; one whose key is no text is never looked up. -/
def textOf (field : String) (e : Value × Value) : Except OptionsError (Option (String × String)) :=
  match e.1.string?, e.2.string? with
  | none, _ => .ok none
  | some key, some text => .ok (some (key, text))
  | some _, none => .error (.shape (.noText field))

/-- A table of texts with that of the settings laid over it. -/
def laidOver (table : List (String × String)) (s : Settings) (field : String) :
    Except OptionsError (List (String × String)) :=
  match Settings.given? s field with
  | none => .ok table
  | some v => do
    let texts ← (← entriesOf field v).mapM (textOf field)
    return Assoc.putAll table (texts.filterMap id)

def kindsOf (s : Settings) : Except OptionsError (List String) :=
  match Settings.given? s "compound_kinds" with
  | none => .ok defaultCompoundKinds
  | some v => do return (← itemsOf "compound_kinds" v).filterMap Value.string?

def prefixOf (s : Settings) : Except OptionsError String :=
  match Settings.given? s "prefix" with
  | none => .ok ""
  | some v =>
    match v.string? with
    | some text => .ok text
    | none => .error (.shape (.noText "prefix"))

def ofSettings (s : Settings) : Except OptionsError Options := do
  let aliases ← aliasesOf s
  let sectionKinds ← laidOver defaultSectionKinds s "sections"
  let renames ← laidOver defaultRenames s "overload_names"
  let std ← match (Settings.get? s "std_type_links").filter fun v => !v.isNull with
    | some v => LinkTable.ofValue "std_type_links" v
    | none => pure .cppReference
  let compoundKinds ← kindsOf s
  let idl ← LinkTable.ofValue "idl_type_links"
    ((Settings.get? s "idl_type_links").getD .null)
  let pagePrefix ← prefixOf s
  return { pagePrefix, compoundKinds, aliases, sectionKinds, renames, std, idl }

end Options

end DoxPages
