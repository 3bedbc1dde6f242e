import DoxPages.Yaml.Node

/-!
# Configuration values of YAML nodes

Keys must be scalars, and the last value of a key counts. Entries that are merged
into a mapping stand in front of its own, so that its own take their place.
-/

namespace DoxPages

namespace Yaml.Node

/-- A key of a mapping. -/
def key? : Value → Option Scalar
  | .scalar s => some s
  | _ => none

/-- The first value that stands for a mapping where a scalar is wanted. -/
def default? : List (Node × Node) → Option String
  | [] => none
  | (k, v) :: es =>
    if k.tag = .default then
      match v with
      | scalar _ text => some text
      | _ => none
    else default? es

mutual

def value? : Node → Option Value
  | scalar tag text => (scalarValue? tag text).map .scalar
  | sequence tag items =>
    match tag with
    | .sequence => (values? items).map .list
    | .orderedMapping | .pairs => (pairs? items).map .list
    | _ => none
  | mapping tag entries =>
    match tag with
    | .mapping => (entries? entries).map fun es => .mapping (Assoc.putAll [] (es.1 ++ es.2))
    | .set => (entries? entries).map fun es =>
      .set ((Assoc.putAll [] (es.1 ++ es.2)).map Prod.fst)
    | _ => (default? entries).bind fun text => (scalarValue? tag text).map .scalar
  | enclosing _ => none

def values? : List Node → Option (List Value)
  | [] => some []
  | n :: ns => do return (← n.value?) :: (← values? ns)

/-- The pairs of a sequence of mappings with one entry each. -/
def pairs? : List Node → Option (List Value)
  | [] => some []
  | n :: ns =>
    match n with
    | mapping _ [(k, v)] => do return .pair (← k.value?) (← v.value?) :: (← pairs? ns)
    | _ => none

/-- The merged entries of a mapping and its own. -/
def entries? : List (Node × Node) → Option (List (Scalar × Value) × List (Scalar × Value))
  | [] => some ([], [])
  | (k, v) :: es => do
    if k.tag = .merge then
      let merged ← merged? v
      let (more, own) ← entries? es
      return (merged ++ more, own)
    else
      let key ← if k.tag = .default then some (.string "=") else (← k.value?) |> key?
      let value ← v.value?
      let (merged, own) ← entries? es
      return (merged, (key, value) :: own)

/-- The entries that a node brings when it is merged: those of a mapping, or of several, where
the first one counts. -/
def merged? : Node → Option (List (Scalar × Value))
  | mapping _ entries => (entries? entries).map fun es => es.1 ++ es.2
  | sequence _ items => mergedAll? items
  | _ => none

def mergedAll? : List Node → Option (List (Scalar × Value))
  | [] => some []
  | n :: ns =>
    match n with
    | mapping _ entries => do
      let (merged, own) ← entries? entries
      return (← mergedAll? ns) ++ (merged ++ own)
    | _ => none

end

end Yaml.Node

namespace Value

/-- The value that a text describes. -/
def ofYaml? (text : String) : Option Value := (Yaml.document? text).bind (·.value?)

end Value

end DoxPages
