import DoxPages.Text.Blank

/-!
# Markup trees

Text and tagged elements in document order. Attributes keep the order in which
they were written; the first entry of a name counts.
-/

namespace DoxPages

inductive Node where
  | text (s : String)
  | element (tag : String) (attrs : List (String × String)) (children : List Node)
  deriving Repr, Inhabited

namespace Node

/-- An element that stands for a description that is not there. -/
def empty : Node := element "" [] []

def tag : Node → String
  | text _ => ""
  | element tag _ _ => tag

def attrs : Node → List (String × String)
  | text _ => []
  | element _ attrs _ => attrs

def children : Node → List Node
  | text _ => []
  | element _ _ children => children

def attr? (n : Node) (name : String) : Option String := n.attrs.lookup name

/-- An attribute, or a default in its place. -/
def attr (n : Node) (name : String) (default : String := "") : String :=
  (n.attr? name).getD default

def isElement : Node → Bool
  | text _ => false
  | element .. => true

/-- The child elements. -/
def childElements (n : Node) : List Node := n.children.filter isElement

/-- The child elements with a given tag. -/
def elements (n : Node) (tag : String) : List Node :=
  n.childElements.filter fun c => c.tag = tag

/-- The first child element with a given tag. -/
def first? (n : Node) (tag : String) : Option Node := (n.elements tag).head?

mutual

/-- All character data below a node in document order. -/
def textContent : Node → String
  | text s => s
  | element _ _ children => textContents children

def textContents : List Node → String
  | [] => ""
  | n :: ns => n.textContent ++ textContents ns

end

mutual

/-- A node and all nodes below it in document order. -/
def within : Node → List Node
  | text s => [text s]
  | element tag attrs children => element tag attrs children :: withinAll children

def withinAll : List Node → List Node
  | [] => []
  | n :: ns => n.within ++ withinAll ns

end

/-- The text content without blanks at its ends. -/
def strippedText (n : Node) : String := Text.onChars Text.strip n.textContent

/-- The stripped text of an element that may be missing. -/
def optionalText (n : Option Node) : String := (n.map strippedText).getD ""

end Node

end DoxPages
