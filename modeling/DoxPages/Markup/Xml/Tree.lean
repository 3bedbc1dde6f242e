import DoxPages.Markup.Node
import DoxPages.Markup.Xml.Token
import DoxPages.Text.Lines

/-!
# Trees of XML documents

Tags are matched and prefixes are looked up in the declarations around them.
Elements are known by their local name, attributes in a namespace by the
namespace's address in braces before it. Comments and instructions leave nothing
but a break between the texts at their sides.
-/

namespace DoxPages.Xml

open Text

/-- The address of each prefix in scope, innermost declarations first. -/
abbrev Scope := List (List Char × List Char)

def xmlSpace : List Char := "http://www.w3.org/XML/1998/namespace".toList

def xmlnsSpace : List Char := "http://www.w3.org/2000/xmlns/".toList

def xmlnsPrefix : List Char := "xmlns".toList

def isUriChar (c : Char) : Bool :=
  c.isAlphanum || "-._~:/?#[]@!$&'()*+,;=%".toList.contains c

/-- The prefix an attribute declares, if it is a declaration. -/
def declared? (name : QName) : Option (List Char) :=
  if name.space = xmlnsPrefix then some name.base
  else if name.space = [] ∧ name.base = xmlnsPrefix then some []
  else none

/-- Whether an address may be declared for a prefix. -/
def isDeclarable (space address : List Char) : Bool :=
  if space = "xml".toList then address = xmlSpace
  else space ≠ xmlnsPrefix && address ≠ xmlSpace && address ≠ xmlnsSpace
    && (space = [] || address ≠ []) && address.all isUriChar

/-- The scope inside a tag with the given attributes. -/
def Scope.enter? (scope : Scope) : List (QName × List Char) → Option Scope
  | [] => some scope
  | (name, value) :: attrs =>
    match declared? name with
    | none => enter? scope attrs
    | some space =>
      if isDeclarable space value then enter? ((space, value) :: scope) attrs else none

/-- The address of a prefix; no prefix has none. -/
def Scope.address? (scope : Scope) (space : List Char) : Option (List Char) :=
  if space = [] then some []
  else if space = "xml".toList then some xmlSpace
  else scope.lookup space

/-- The attributes of a tag by their full names, without declarations; no two may be the same. -/
def attributes (scope : Scope) (attrs : List (QName × List Char)) :
    Option (List (String × String)) := do
  if ¬(attrs.map Prod.fst).Nodup then none
  let plain := attrs.filter fun (name, _) => (declared? name).isNone
  let named ← plain.mapM fun (name, value) => do
    let address ← scope.address? name.space
    let full := if name.space = [] then name.base else '{' :: address ++ '}' :: name.base
    return (String.ofList full, String.ofList value)
  if (named.map Prod.fst).Nodup then some named else none

/-- An element that is not closed yet; its children are newest first. -/
structure Open where
  name : QName
  attrs : List (String × String)
  scope : Scope
  children : List Node := []
  /-- Text that may still go on. -/
  pending : List Char := []
  deriving Inhabited

namespace Open

/-- Ends the text that may still go on. -/
def settle (o : Open) : Open :=
  if o.pending = [] then o
  else { o with children := .text (String.ofList o.pending) :: o.children, pending := [] }

def addText (o : Open) (cs : List Char) : Open := { o with pending := o.pending ++ cs }

def addChild (o : Open) (n : Node) : Open :=
  let o := o.settle
  { o with children := n :: o.children }

def close (o : Open) : Node :=
  .element (String.ofList o.name.base) o.attrs o.settle.children.reverse

end Open

/-- Where a reading stands: before, inside or behind the outermost element. -/
inductive Place where
  | before (typed : Bool)
  | inside (innermost : Open) (outer : List Open)
  | behind (root : Node)
  deriving Inhabited

namespace Place

def scope : Place → Scope
  | inside o _ => o.scope
  | _ => []

/-- The place behind an element that is complete. -/
def complete (n : Node) : List Open → Place
  | [] => behind n
  | o :: outer => inside (o.addChild n) outer

def enter? (p : Place) (o : Open) : Option Place :=
  match p with
  | before _ => some (inside o [])
  | inside innermost outer => some (inside o (innermost :: outer))
  | behind _ => none

def step? (p : Place) : Token → Option Place
  | .aside =>
    match p with
    | inside o outer => some (inside o.settle outer)
    | p => some p
  | .doctype =>
    match p with
    | before false => some (before true)
    | _ => none
  | .text raw =>
    match p with
    | inside o outer => (runningText? raw).map fun cs => inside (o.addText cs) outer
    | p => if raw.all isSpace then some p else none
  | .literal cs =>
    match p with
    | inside o outer => some (inside (o.addText cs) outer)
    | _ => none
  | .opening name attrs closed => do
    let scope ← p.scope.enter? attrs
    let attrs ← attributes scope attrs
    if (scope.address? name.space).isNone then none
    let o : Open := { name, attrs, scope }
    match p, closed with
    | before _, true => some (behind o.close)
    | inside innermost outer, true => some (inside (innermost.addChild o.close) outer)
    | p, _ => p.enter? o
  | .closing name =>
    match p with
    | inside o outer => if o.name = name then some (complete o.close outer) else none
    | _ => none

end Place

end Xml

/-- The tree of a well-formed document. -/
def Node.ofXml? (source : String) : Option Node := do
  let cs := Text.normalizeNewlines source.toList
  let cs := if cs.head? = some '\ufeff' then cs.drop 1 else cs
  if !cs.all Xml.isAllowed then none
  let body ← Xml.behindDeclaration cs
  let tokens ← Xml.tokens? (body.length + 1) body
  match ← tokens.foldlM Xml.Place.step? (.before false) with
  | .behind root => some root
  | _ => none

end DoxPages
