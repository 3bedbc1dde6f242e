import DoxPages.Docs.Grouping
import DoxPages.Docs.Options
import DoxPages.Docs.Prototype

/-!
# Building the documentation of a model

Every compound is grouped first: it gets a page and its members get overloads
with anchors. Only then are descriptions rendered, because they may refer to any
page. Grouping can fail; it leaves the builder as far as it got.
-/

namespace DoxPages.Docs

open Text

structure Builder where
  options : Options := {}
  /-- The compounds by page, in order of grouping. -/
  compounds : List (String × Compound) := []
  /-- The page of each compound id. -/
  pages : List (String × String) := []
  /-- The page and the overload of each member id. -/
  members : List (String × String × String) := []
  /-- The qualified name behind each page. -/
  origins : List (String × String) := []
  /-- The members shown on each page, in the order of the source. -/
  declared : List (String × List Source.Member) := []
  deriving Repr, Inhabited

/-- The namespace and the bare name of a qualified name, without template arguments. -/
def splitQualified (qualified : String) : String × String :=
  let parts := splitColons (strip (before '<' qualified.toList))
  (joinWith "::" (parts.dropLast.map String.ofList), String.ofList (parts.getLast?.getD []))
where
  splitColons : List Char → List (List Char)
    | [] => [[]]
    | [c] => [[c]]
    | c :: d :: cs =>
      if c = ':' ∧ d = ':' then [] :: splitColons cs
      else match splitColons (d :: cs) with
        | [] => [[c]]
        | piece :: pieces => (c :: piece) :: pieces

/-- The file a declaration stands in, without its directories. -/
def headerName (file : String) : String :=
  (Path.ofString (onChars (replaceChar '\\' ['/']) file)).name

namespace Builder

/-- The page of a compound: its bare name in lower case behind a common prefix. -/
def pageOf (b : Builder) (typeName : String) : String :=
  b.options.pagePrefix ++ onChars lower typeName

def overload? (b : Builder) (page name : String) : Option Overload :=
  (b.compounds.lookup page).bind fun c => c.overload? name

/-- The page and overload that document a member. -/
def member? (b : Builder) (id : String) : Option (String × Overload) := do
  let (page, name) ← b.members.lookup id
  let o ← b.overload? page name
  return (page, o)

/-- What descriptions can refer to. -/
def resolver (b : Builder) : Resolver where
  linker := ⟨b.options.std, b.options.idl⟩
  compound? id := b.pages.lookup id
  member? id := (b.member? id).map fun (page, o) => (page, o.anchor)

/-- Whether all compounds can be put in order by the namespaces they are shown under. -/
def hasOrder (b : Builder) : Bool := b.compounds.all fun e => b.options.showsText e.2.scope

/-! ## Grouping -/

/-- Gives a compound its page, unless another one has it. -/
def register (b : Builder) (c : Source.Compound) : Except ConfigError (Builder × Compound) :=
  let (scope, typeName) := splitQualified c.name
  let page := b.pageOf typeName
  match b.origins.lookup page with
  | some first => .error (.pageTaken page first c.name)
  | none =>
    let compound : Compound :=
      { kind := c.kind, scope, typeName, page
        scopeAlias := b.options.alias? scope
        header := headerName c.file }
    .ok ({ b with
      compounds := b.compounds ++ [(page, compound)]
      pages := Assoc.put c.id page b.pages
      origins := b.origins ++ [(page, c.name)]
      declared := b.declared ++ [(page, [])] }, compound)

/-- Puts a compound and the members read for it in their places. -/
def record (b : Builder) (c : Compound) (visited : List (Source.Member × String)) : Builder :=
  { b with
    compounds := Assoc.adjust c.page (fun _ => c) b.compounds
    members := Assoc.putAll b.members (visited.map fun (m, name) => (m.id, c.page, name))
    declared := Assoc.adjust c.page (fun _ => visited.map Prod.fst) b.declared }

/-- Gives a compound its page, sections, overloads and anchors. -/
def group (b : Builder) (c : Source.Compound) : Builder × Option ConfigError :=
  match b.register c with
  | .error e => (b, some e)
  | .ok (b, compound) =>
    let nameOf member := overloadName b.options.renames member compound.typeName
    match Grouping.addSections b.options.sectionKinds nameOf c.sections {} with
    | (g, some e) => (b.record { compound with overloads := g.overloads } g.visited, some e)
    | (g, none) =>
      let (overloads, sections) := g.ordered
      (b.record { compound with overloads, sections } g.visited, none)

/-- Groups compounds in order up to the first that cannot be grouped. -/
def groupAll (b : Builder) : List Source.Compound → Reported (Builder × Option ConfigError)
  | [] => pure (b, none)
  | c :: cs => do
    Reported.report (.grouping c.name)
    match b.group c with
    | (b, some e) => pure (b, some e)
    | (b, none) => b.groupAll cs

/-! ## Conversion -/

/-- A declaration with its rendered texts. -/
def document (r : Resolver) (m : Source.Member) : Reported Member := do
  let brief ← m.brief.toMarkdown (some r)
  let details ← m.detailed.toMarkdown (some r)
  let prototype ← m.prototype
  return { source := m, brief, details, summary := summarize brief details, prototype }

def overloadSummary (c : Compound) (o : Overload) : String :=
  if o.name = constructorName then "constructs the " ++ codeLink c.typeName c.page
  else if o.name = destructorName then "destroys the " ++ codeLink c.typeName c.page
  else onChars lowerFirst ((o.members.head?.map (·.summary)).getD "")

def documentOverload (r : Resolver) (c : Compound) (o : Overload) : Overload :=
  let members := o.members.map fun (m : Member) => (document r m.source).value
  { o with members, summary := overloadSummary c { o with members } }

def base (b : Builder) (ref : Source.BaseRef) : Base where
  name := ref.displayName
  access := ref.access
  page := ref.refid.bind fun id => if id = "" then none else b.pages.lookup id

/-- The page of a compound with every text rendered. -/
def documentCompound (b : Builder) (c : Source.Compound) (page : Compound) :
    Reported Compound := do
  let r := b.resolver
  let brief ← c.brief.toMarkdown (some r)
  let details ← c.detailed.toMarkdown (some r)
  let prototype ← Source.compoundPrototype c.kind page.typeName c.bases c.params
  let _ ← Reported.each (document r) ((b.declared.lookup page.page).getD [])
  return { page with
    brief, details, prototype
    summary := summarize brief details
    bases := c.bases.map b.base
    overloads := page.overloads.map (documentOverload r page) }

/-- Renders the texts of a compound that was grouped; any other changes nothing. -/
def convert (b : Builder) (c : Source.Compound) : Reported Builder :=
  match (b.pages.lookup c.id).bind fun page => b.compounds.lookup page with
  | none => pure b
  | some page => do
    let page ← b.documentCompound c page
    return { b with compounds := Assoc.adjust page.page (fun _ => page) b.compounds }

def convertAll (b : Builder) : List Source.Compound → Reported Builder
  | [] => pure b
  | c :: cs => do (← b.convert c).convertAll cs

/-- Groups and then converts every compound of a documented kind. -/
def build (b : Builder) (model : Source.Model) : Reported (Builder × Option ConfigError) := do
  let documented := (model.map Prod.snd).filter fun c => b.options.compoundKinds.contains c.kind
  match ← b.groupAll documented with
  | (b, some e) => pure (b, some e)
  | (b, none) =>
    let b ← b.convertAll documented
    Reported.report (.built documented.length)
    pure (b, none)

end Builder

end DoxPages.Docs
