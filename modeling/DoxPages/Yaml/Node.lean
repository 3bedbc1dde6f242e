import DoxPages.Yaml.Layout
import DoxPages.Yaml.Schema

/-!
# YAML nodes

A document is a tree of scalars, sequences and mappings. An alias stands for the
node of its anchor; inside that node it is a reference back, and the node is
unfolded as far as anything looks into it.
-/

namespace DoxPages.Yaml

inductive Node where
  | scalar (tag : Tag) (text : String)
  | sequence (tag : Tag) (items : List Node)
  | mapping (tag : Tag) (entries : List (Node × Node))
  /-- The collection around this node that has the given anchor. -/
  | enclosing (anchor : String)
  deriving Repr, Inhabited

namespace Node

/-- The node that stands where none is written. -/
def empty : Node := scalar .null ""

def tag : Node → Tag
  | scalar tag _ | sequence tag _ | mapping tag _ => tag
  | enclosing _ => .other

/-! ## References back -/

mutual

/-- Puts a node in place of the references to an anchor. -/
def replace (anchor : String) (image : Node) : Node → Node
  | scalar tag text => scalar tag text
  | sequence tag items => sequence tag (replaceAll anchor image items)
  | mapping tag entries => mapping tag (replaceEntries anchor image entries)
  | enclosing name => if name = anchor then image else enclosing name

def replaceAll (anchor : String) (image : Node) : List Node → List Node
  | [] => []
  | n :: ns => replace anchor image n :: replaceAll anchor image ns

def replaceEntries (anchor : String) (image : Node) : List (Node × Node) → List (Node × Node)
  | [] => []
  | (k, v) :: es =>
    (replace anchor image k, replace anchor image v) :: replaceEntries anchor image es

end

/-- The node without anything in it. -/
def hollow : Node → Node
  | scalar tag text => scalar tag text
  | sequence tag _ => sequence tag []
  | mapping tag _ => mapping tag []
  | enclosing name => enclosing name

/-- The node with references to itself unfolded to a depth. -/
def unfold (anchor : String) (n : Node) : (depth : Nat) → Node
  | 0 => n.hollow
  | depth + 1 => replace anchor (unfold anchor n depth) n

/-- Nothing looks deeper into a configuration. -/
def unfoldDepth : Nat := 4

end Node

/-! ## Reading a document -/

/-- The tokens to read, the handles of tags, and the nodes with anchors. -/
structure Reading where
  tokens : List Token
  handles : List (String × String) := []
  anchors : List (String × Node) := []

abbrev Compose := StateT Reading Option

namespace Compose

def peek : Compose (Option Token) := do return (← get).tokens.head?

def next : Compose Unit := modify fun s => { s with tokens := s.tokens.tail }

/-- Skips a token if it is the next one, and says whether it was. -/
def accept (t : Token) : Compose Bool := do
  if (← peek) = some t then
    next
    return true
  else return false

def expect (t : Token) : Compose Unit := do
  if !(← accept t) then failure

/-- The anchor and the tag in front of a node, in either order. -/
def properties : Compose (Option String × Option (Option String × String)) := do
  match ← peek with
  | some (.anchor name) =>
    next
    match ← peek with
    | some (.tag handle suffix) =>
      next
      return (some name, some (handle, suffix))
    | _ => return (some name, none)
  | some (.tag handle suffix) =>
    next
    match ← peek with
    | some (.anchor name) =>
      next
      return (some name, some (handle, suffix))
    | _ => return (none, some (handle, suffix))
  | _ => return (none, none)

/-- A tag in full; its handle must be known. -/
def fullTag : Option String × String → Compose String
  | (none, suffix) => pure suffix
  | (some handle, suffix) => do
    let some uri := (← get).handles.lookup handle | failure
    return uri ++ suffix

/-- The tag of a node from the one that is written; a single mark leaves it open. -/
def tagOf (implicit : Tag) : Option String → Tag
  | none => implicit
  | some uri => if uri = "!" then implicit else .ofUri uri

def scalarTag (written : Option String) (plain : Bool) (text : String) : Tag :=
  if written = none ∧ !plain then .string else tagOf (.ofPlain text) written

def known (name : String) : Compose Node := do
  let some n := (← get).anchors.lookup name | failure
  return n

/-- Opens an anchor; there must be none of its name. -/
def openAnchor (name : String) : Compose Unit := do
  if ((← get).anchors.lookup name).isSome then failure
  modify fun s => { s with anchors := (name, .enclosing name) :: s.anchors }

/-- Closes an anchor: its node takes the place of the references to it. -/
def closeAnchor (name : String) (n : Node) : Compose Node := do
  let n := n.unfold name Node.unfoldDepth
  modify fun s => { s with anchors := s.anchors.map fun (a, m) => (a, Node.replace name n m) }
  return n

mutual

def node : (fuel : Nat) → (block indentless : Bool) → Compose Node
  | 0, _, _ => failure
  | fuel + 1, block, indentless => do
    if let some (.reference name) ← peek then
      next
      return ← known name
    let (anchor, tag) ← properties
    let tag ← tag.mapM fullTag
    anchor.forM openAnchor
    let n ← content fuel block indentless (anchor.isSome || tag.isSome) tag
    match anchor with
    | some name => closeAnchor name n
    | none => return n

/-- A node behind its properties; with any, it may be left out. -/
def content : (fuel : Nat) → (block indentless marked : Bool) → Option String → Compose Node
  | 0, _, _, _, _ => failure
  | fuel + 1, block, indentless, marked, tag => do
    match ← peek with
    | some (.scalar text plain) =>
      next
      return .scalar (scalarTag tag plain text) text
    | some .flowSequence =>
      next
      return .sequence (tagOf .sequence tag) (← flowItems fuel true)
    | some .flowMapping =>
      next
      return .mapping (tagOf .mapping tag) (← flowEntries fuel true)
    | t =>
      if t = some .entry ∧ indentless then
        return .sequence (tagOf .sequence tag) (← looseItems fuel)
      else if t = some .blockSequence ∧ block then
        next
        return .sequence (tagOf .sequence tag) (← blockItems fuel)
      else if t = some .blockMapping ∧ block then
        next
        return .mapping (tagOf .mapping tag) (← blockEntries fuel)
      else if marked then return .scalar (scalarTag tag true "") ""
      else failure

/-- A node, or an empty one if a token stands here that cannot start it. -/
def nodeUnless : (fuel : Nat) → (block indentless : Bool) → List Token → Compose Node
  | 0, _, _, _ => failure
  | fuel + 1, block, indentless, ends => do
    match ← peek with
    | some t => if t ∈ ends then return .empty else node fuel block indentless
    | none => failure

/-- The items of a block sequence. -/
def blockItems : (fuel : Nat) → Compose (List Node)
  | 0 => failure
  | fuel + 1 => do
    if ← accept .entry then
      let n ← nodeUnless fuel true false [.entry, .blockEnd]
      return n :: (← blockItems fuel)
    else
      expect .blockEnd
      return []

/-- The items of a sequence that is indented like the key above it. -/
def looseItems : (fuel : Nat) → Compose (List Node)
  | 0 => failure
  | fuel + 1 => do
    if ← accept .entry then
      let n ← nodeUnless fuel true false [.entry, .key, .value, .blockEnd]
      return n :: (← looseItems fuel)
    else return []

def blockEntries : (fuel : Nat) → Compose (List (Node × Node))
  | 0 => failure
  | fuel + 1 => do
    if ← accept .key then
      let ends := [.key, .value, .blockEnd]
      let k ← nodeUnless fuel true true ends
      let v ← if ← accept .value then nodeUnless fuel true true ends else pure .empty
      return (k, v) :: (← blockEntries fuel)
    else
      expect .blockEnd
      return []

/-- A key of a flow collection with its value; the mark of the key is read already. -/
def flowEntry : (fuel : Nat) → (close : Token) → Compose (Node × Node)
  | 0, _ => failure
  | fuel + 1, close => do
    let k ← nodeUnless fuel false false [.value, .separator, close]
    let v ← if ← accept .value then nodeUnless fuel false false [.separator, close] else pure .empty
    return (k, v)

/-- The items of a flow sequence; an entry of a mapping may stand for a mapping. -/
def flowItems : (fuel : Nat) → (first : Bool) → Compose (List Node)
  | 0, _ => failure
  | fuel + 1, first => do
    if ← accept .flowSequenceEnd then return []
    if !first then expect .separator
    if ← accept .key then
      let e ← flowEntry fuel .flowSequenceEnd
      return .mapping .mapping [e] :: (← flowItems fuel false)
    else if ← accept .flowSequenceEnd then return []
    else
      let n ← node fuel false false
      return n :: (← flowItems fuel false)

def flowEntries : (fuel : Nat) → (first : Bool) → Compose (List (Node × Node))
  | 0, _ => failure
  | fuel + 1, first => do
    if ← accept .flowMappingEnd then return []
    if !first then expect .separator
    if ← accept .key then
      let e ← flowEntry fuel .flowMappingEnd
      return e :: (← flowEntries fuel false)
    else if ← accept .flowMappingEnd then return []
    else
      let k ← node fuel false false
      return (k, .empty) :: (← flowEntries fuel false)

end

/-! ## Documents -/

def defaultHandles : List (String × String) := [("!", "!"), ("!!", coreUri)]

/-- The handles that directives define; each thing may be said once, and the major version
must be one. -/
def handlesOf? : (versioned : Bool) → List (String × String) → List Directive →
    Option (List (String × String))
  | _, handles, [] => some (handles ++ defaultHandles)
  | versioned, handles, .version major :: ds =>
    if versioned ∨ major ≠ 1 then none else handlesOf? true handles ds
  | versioned, handles, .handle name uri :: ds =>
    if (handles.lookup name).isSome then none else handlesOf? versioned ((name, uri) :: handles) ds
  | versioned, handles, .other :: ds => handlesOf? versioned handles ds

/-- The directives at the head of the tokens, and the tokens behind them. -/
def spanDirectives : List Token → List Directive × List Token
  | .directive d :: ts =>
    let (ds, rest) := spanDirectives ts
    (d :: ds, rest)
  | ts => ([], ts)

/-- Enough steps for every path down through the tokens. -/
def fuelFor (ts : List Token) : Nat := 4 * ts.length + 4

def document? (ts : List Token) : Option Node := do
  let (ds, rest) := spanDirectives ts
  let (n, final) ←
    if ds = [] ∧ rest.head? ≠ some .documentStart then
      (node (fuelFor ts) true false).run { tokens := ts, handles := defaultHandles }
    else do
      let handles ← handlesOf? false [] ds
      let .documentStart :: body := rest | none
      match body with
      | [] | .directive _ :: _ | .documentStart :: _ | .documentEnd :: _ =>
        some (.empty, { tokens := body })
      | _ => (node (fuelFor ts) true false).run { tokens := body, handles }
  if final.tokens.all (· == .documentEnd) then some n else none

end Compose

/-- The one document of a text; a text without any stands for an empty node. -/
def document? (text : String) : Option Node := do
  let ts ← tokens? text.toList
  if ts = [] then some .empty else Compose.document? ts

end DoxPages.Yaml
