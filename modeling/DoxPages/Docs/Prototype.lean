import DoxPages.Description.Render
import DoxPages.Source.Model
import DoxPages.Text.LetterCase

/-!
# Prototypes and summaries

One-line declarations in the manner of C++, and the line that describes a member
in a table. Types and defaults are rendered without links.
-/

namespace DoxPages

open Text

/-- A rendered type on one line. -/
def normalizeType (s : String) : String := onChars (fun cs => strip (collapseBlanks cs)) s

/-! ## Default values -/

/-- An equals sign that belongs to no longer operator, with the blanks around it. -/
def findAssignment : Finder Unit := fun prev cs =>
  let lead := cs.takeWhile isBlank
  match cs.drop lead.length with
  | '=' :: rest =>
    let left := if lead = [] then prev else some ' '
    if left.any (['=', '!', '<', '>'].contains ·) || rest.head? == some '=' then none
    else some ((), lead.length + 1 + (rest.takeWhile isBlank).length)
  | _ => none

/-- The argument list with every assignment between single spaces. -/
def spaceDefaults (args : List Char) : List Char :=
  (split findAssignment none args).write id fun _ => [' ', '=', ' ']

/-! ## Templates -/

namespace Source

/-- A type without links. -/
def plainType (n : Node) : Reported String := do
  return normalizeType (← n.toMarkdown none)

def Param.text (p : Param) : Reported String := do
  let type ← plainType p.type
  let named :=
    if p.declname ≠ "" ∧ ¬p.declname.toList.isSuffixOf type.toList then type ++ " " ++ p.declname
    else type
  match p.defval with
  | none => return named
  | some value =>
    let value ← plainType value
    return if value = "" then named else named ++ " = " ++ value

def templateHeader (params : List Param) : Reported String := do
  return "template<" ++ joinWith ", " (← Reported.each Param.text params) ++ ">"

/-- The line of a template header in front of a declaration. -/
def headerLine : Option (List Param) → Reported String
  | none => pure ""
  | some params => do return (← templateHeader params) ++ "\n"

/-! ## Members and compounds -/

/-- The type in front of a member's name; references and pointers hug the name. -/
def leadingType (type : String) : String :=
  if type = "" ∨ type.toList.getLast? = some '&' ∨ type.toList.getLast? = some '*' then type
  else type ++ " "

def Member.prototype (m : Member) : Reported String := do
  let header ← headerLine m.params
  let type ← plainType m.type
  return header ++ m.access ++ ": "
    ++ (if m.static then "static " else "")
    ++ (if m.virt = "virtual" ∨ m.virt = "pure-virtual" then "virtual " else "")
    ++ (if m.explicit then "explicit " else "")
    ++ leadingType type ++ m.name
    ++ onChars (fun cs => spaceDefaults (strip cs)) m.args ++ ";"

/-- The name of a base class without blanks inside its brackets. -/
def BaseRef.displayName (b : BaseRef) : String :=
  onChars (fun cs => replacePair ' ' '>' ['>'] (replacePair '<' ' ' ['<'] cs)) b.name

/-- A compound with its base classes, one to a line. -/
def compoundPrototype (kind typeName : String) (bases : List BaseRef)
    (params : Option (List Param)) : Reported String := do
  let header ← headerLine params
  let separators := ":" :: List.replicate (bases.length - 1) ","
  let lines := (separators.zip bases).map fun (sep, b) =>
    "\n    " ++ sep ++ " " ++ b.access ++ " " ++ b.displayName
  return header ++ kind ++ " " ++ typeName ++ String.join lines

end Source

/-! ## Summaries -/

/-- The brief description, else the first line of the details, else a blank that shows. -/
def summarize (brief details : String) : String :=
  let short := onChars strip brief
  let first := onChars (fun cs => strip (before '\n' (strip cs))) details
  if short ≠ "" then short else if first ≠ "" then first else "&nbsp;"

/-- The text with its first letter in lower case. -/
def lowerFirst : List Char → List Char
  | [] => []
  | c :: cs => if isUpper c then lower [c] ++ cs else c :: cs

end DoxPages
