import DoxPages.Text.Basic

/-!
# Characters and names of XML

The character classes of XML 1.0, fifth edition, and the names of XML namespaces.
-/

namespace DoxPages.Xml

open Text

/-- The characters that may stand in a document. -/
def isAllowed (c : Char) : Bool :=
  inRanges [(9, 10), (13, 13), (0x20, 0xD7FF), (0xE000, 0xFFFD), (0x10000, 0x10FFFF)] c

def isSpace (c : Char) : Bool := c == ' ' || c == '\t' || c == '\n' || c == '\r'

/-- Characters that may start a name; the colon is not among them. -/
def isNameStart (c : Char) : Bool :=
  c == '_' || inRanges [(0x41, 0x5A), (0x61, 0x7A), (0xC0, 0xD6), (0xD8, 0xF6), (0xF8, 0x2FF),
    (0x370, 0x37D), (0x37F, 0x1FFF), (0x200C, 0x200D), (0x2070, 0x218F), (0x2C00, 0x2FEF),
    (0x3001, 0xD7FF), (0xF900, 0xFDCF), (0xFDF0, 0xFFFD), (0x10000, 0xEFFFF)] c

def isNameChar (c : Char) : Bool :=
  isNameStart c || c == '-' || c == '.' || c.isDigit
    || inRanges [(0xB7, 0xB7), (0x300, 0x36F), (0x203F, 0x2040)] c

/-- A name with its namespace prefix, which is empty if there is none. -/
structure QName where
  space : List Char
  base : List Char
  deriving DecidableEq, Repr, Inhabited

/-- The name without colons that a text starts with, and the rest. -/
def bareName? (cs : List Char) : Option (List Char × List Char) :=
  if cs.head?.any isNameStart then some (cs.takeWhile isNameChar, cs.dropWhile isNameChar)
  else none

/-- The name that a text starts with; it has at most one colon, with a name on each side. -/
def name? (cs : List Char) : Option (QName × List Char) := do
  let (first, rest) ← bareName? cs
  match rest with
  | ':' :: rest =>
    let (second, rest) ← bareName? rest
    if rest.head? = some ':' then none else some (⟨first, second⟩, rest)
  | _ => some (⟨[], first⟩, rest)

def skipSpace (cs : List Char) : List Char := cs.dropWhile isSpace

/-- The rest of a text that starts with the given characters. -/
def after? (start cs : List Char) : Option (List Char) :=
  if start.isPrefixOf cs then some (cs.drop start.length) else none

/-- What stands before and behind the first occurrence of a text. -/
def cutAt? (stop : List Char) : List Char → Option (List Char × List Char)
  | [] => none
  | c :: cs =>
    if stop.isPrefixOf (c :: cs) then some ([], (c :: cs).drop stop.length)
    else (cutAt? stop cs).map fun (front, rest) => (c :: front, rest)

end DoxPages.Xml
