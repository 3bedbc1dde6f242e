import DoxPages.Docs.Model
import DoxPages.Links.Linker
import DoxPages.Page.CodeBlock
import DoxPages.Page.Table

/-!
# The page of a compound

Front matter, the declaration with its descriptions, base classes, a table for
every section that links to the overloads, and the overloads in detail. A page is
a list of lines in which an element may itself be several lines long.
-/

namespace DoxPages.Page

open Text Docs

/-- The lines as a page: no blanks at the end, and one line feed. -/
def ofLines (lines : List String) : String := onChars stripRight (joinWith "\n" lines) ++ "\n"

def frontMatter (id title : String) : List String :=
  ["---", "id: " ++ id, "title: " ++ title, "---", ""]

/-- A block and the empty line behind it; an empty block leaves nothing. -/
def optionalBlock (s : String) : List String := if s = "" then [] else [s, ""]

/-- A line that shows a value as code, unless there is none. -/
def fact (label value : String) : List String :=
  if value = "" then [] else [label ++ ": `" ++ value ++ "`", ""]

def baseLine (b : Base) : String :=
  "- " ++ b.access ++ " " ++
    match b.page with
    | none | some "" => "`" ++ b.name ++ "`"
    | some page => codeLink b.name page

def baseLines (bases : List Base) : List String :=
  if bases.isEmpty then [] else ["## Base classes", ""] ++ bases.map baseLine ++ [""]

/-- An overload in a summary table: a link to its heading, and what it is for. -/
def summaryRow (o : Overload) : List String := [codeLink o.name o.anchor, o.summary]

def summaryTable (c : Compound) (s : Section) : String :=
  markdownTable ["Name", "Description"] ((c.listed s).map summaryRow)

def sectionLines (c : Compound) (s : Section) : List String :=
  ["## " ++ s.title, "", summaryTable c s, ""]

def memberLines (m : Member) : List String :=
  [codeBlock "cpp" m.prototype, ""] ++ optionalBlock m.brief ++ optionalBlock m.details

/-- The heading of an overload with its anchor. -/
def overloadHeading (o : Overload) : String := "### " ++ o.name ++ " \x7b" ++ o.anchor ++ "\x7d"

def overloadLines (o : Overload) : List String :=
  [overloadHeading o, ""] ++ o.members.flatMap memberLines ++ ["---", ""]

def detailLines (overloads : List Overload) : List String :=
  if overloads.isEmpty then []
  else ["## Member details", ""] ++ overloads.flatMap overloadLines

def compoundLines (c : Compound) : List String :=
  frontMatter c.page c.typeName
    ++ ["Kind: `" ++ c.kind ++ "`", ""]
    ++ fact "Namespace" c.displayScope
    ++ fact "Header" c.header
    ++ optionalBlock c.brief
    ++ [codeBlock "cpp" c.prototype, ""]
    ++ optionalBlock c.details
    ++ baseLines c.bases
    ++ c.sections.flatMap (sectionLines c)
    ++ detailLines c.overloads

def compound (c : Compound) : String := ofLines (compoundLines c)

end DoxPages.Page
