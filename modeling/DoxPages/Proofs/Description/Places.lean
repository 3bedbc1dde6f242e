import DoxPages.Assoc
import DoxPages.Description.Render

/-!
# Where nodes stand

Whether links are made depends on where a node stands: in running text, in the label
of a reference, in code, or below an element whose content is not rendered. `placed`
lists the nodes of a tree with their places, and `keepAttrs` drops attributes by
them, which changes neither the text of a tree nor the rows of its tables.
-/

namespace DoxPages

/-- What a node is rendered as part of. -/
inductive Place where
  /-- Running text, where links are made if there is a resolver. -/
  | body
  /-- The label of a reference, which is rendered without a resolver. -/
  | label
  | code
  /-- The content of an element that does not render it. -/
  | hidden
  deriving DecidableEq, Repr

namespace Rule

/-- Where the content of an element stands by its rule. -/
def inner (p : Place) : Rule → Place
  | literal _ | nothing | verbatim | formula | title => .hidden
  | code .. | listing => .code
  | reference => .label
  | _ => p

end Rule

/-- Where the content of an element stands by its tag. Nothing below a hidden place is rendered. -/
def Place.below (p : Place) (tag : String) : Place :=
  if p = .hidden then .hidden
  else match Rule.ofTag? tag with
    | some rule => rule.inner p
    | none => p

theorem Place.below_of_rule {p : Place} (hp : p ≠ .hidden) {tag : String} {rule : Rule}
    (h : Rule.ofTag? tag = some rule) : p.below tag = rule.inner p := by
  rw [below, if_neg hp, h]

theorem Place.below_of_none {p : Place} {tag : String} (h : Rule.ofTag? tag = none) :
    p.below tag = p := by
  rw [below, h]
  split
  · exact Eq.symm ‹_›
  · rfl

namespace Node

mutual

/-- A node and the nodes below it in document order, each with its place. -/
def placed (p : Place) : Node → List (Place × Node)
  | text s => [(p, text s)]
  | element tag attrs children =>
    (p, element tag attrs children) :: placedAll (p.below tag) children

def placedAll (p : Place) : List Node → List (Place × Node)
  | [] => []
  | n :: ns => n.placed p ++ placedAll p ns

end

mutual

/-- The tree without the attributes that fail a test on the place and tag of their element and
on their own name. -/
def keepAttrs (keep : Place → String → String → Bool) (p : Place) : Node → Node
  | text s => text s
  | element tag attrs children =>
    element tag (attrs.filter fun a => keep p tag a.1) (keepAttrsAll keep (p.below tag) children)

def keepAttrsAll (keep : Place → String → String → Bool) (p : Place) : List Node → List Node
  | [] => []
  | n :: ns => n.keepAttrs keep p :: keepAttrsAll keep p ns

end

variable (keep : Place → String → String → Bool) (p : Place)

/-! ## What is left when attributes are dropped -/

theorem keepAttrsAll_eq_map (ns : List Node) :
    keepAttrsAll keep p ns = ns.map (keepAttrs keep p) := by
  induction ns with
  | nil => rfl
  | cons n ns ih => rw [keepAttrsAll, ih, List.map_cons]

@[simp] theorem tag_keepAttrs (n : Node) : (n.keepAttrs keep p).tag = n.tag := by
  cases n <;> rfl

@[simp] theorem isElement_keepAttrs (n : Node) : (n.keepAttrs keep p).isElement = n.isElement := by
  cases n <;> rfl

@[simp] theorem isVisible_keepAttrs (n : Node) : (n.keepAttrs keep p).isVisible = n.isVisible := by
  cases n <;> rfl

theorem attr_keepAttrs {n : Node} {name : String} (h : keep p n.tag name = true)
    (default : String) : (n.keepAttrs keep p).attr name default = n.attr name default := by
  cases n with
  | text s => rfl
  | element tag as cs =>
    have hlookup := Assoc.lookup_filter (p := keep p tag) (k := name)
      (fun j hj => by rw [eq_of_beq hj]) as
    rw [if_pos (show keep p tag name = true from h)] at hlookup
    exact congrArg (Option.getD · default) hlookup

theorem children_keepAttrs (n : Node) :
    (n.keepAttrs keep p).children = n.children.map (keepAttrs keep (p.below n.tag)) := by
  cases n with
  | text s => rfl
  | element tag as cs => exact keepAttrsAll_eq_map ..

theorem elements_keepAttrs (n : Node) (tag : String) :
    (n.keepAttrs keep p).elements tag = (n.elements tag).map (keepAttrs keep (p.below n.tag)) := by
  simp only [elements, childElements, children_keepAttrs, List.filter_map, Function.comp_def,
    tag_keepAttrs, isElement_keepAttrs]

mutual

@[simp] theorem textContent_keepAttrs (p : Place) :
    ∀ n : Node, (n.keepAttrs keep p).textContent = n.textContent
  | text s => rfl
  | element tag attrs children => by
    rw [keepAttrs, textContent, textContent, textContents_keepAttrs]

theorem textContents_keepAttrs (p : Place) :
    ∀ ns : List Node, textContents (keepAttrsAll keep p ns) = textContents ns
  | [] => rfl
  | n :: ns => by
    rw [keepAttrsAll, textContents, textContents, textContent_keepAttrs, textContents_keepAttrs]

end

end Node

end DoxPages
