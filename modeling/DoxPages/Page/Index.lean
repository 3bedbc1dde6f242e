import DoxPages.Assoc
import DoxPages.Page.Compound
import DoxPages.Text.LetterCase

/-!
# The index page

All compounds by namespace, a table each. Namespaces and names are in order
without regard to case.
-/

namespace DoxPages.Page

open Text Docs

/-- Whether one text comes before another when case is left aside, or they are the same then. -/
def foldedLe (a b : String) : Bool := decide (onChars lower a ≤ onChars lower b)

/-- Adds a compound at the end of the group of its namespace. -/
def addToGroup (groups : List (String × List Compound)) (c : Compound) :
    List (String × List Compound) :=
  Assoc.put c.displayScope ((groups.lookup c.displayScope).getD [] ++ [c]) groups

/-- The compounds by the namespace they are shown under. -/
def byNamespace (compounds : List Compound) : List (String × List Compound) :=
  ((compounds.foldl addToGroup []).mergeSort fun a b => foldedLe a.1 b.1).map fun (scope, cs) =>
    (scope, cs.mergeSort fun a b => foldedLe a.typeName b.typeName)

def indexRow (c : Compound) : List String :=
  [codeLink c.typeName c.page, "`" ++ c.kind ++ "`", c.summary]

def groupLines (scope : String) (compounds : List Compound) : List String :=
  ["## " ++ (if scope = "" then "Global namespace" else scope), "",
    markdownTable ["Name", "Kind", "Description"] (compounds.map indexRow), ""]

def index (id title : String) (compounds : List Compound) : String :=
  ofLines (frontMatter id title ++ (byNamespace compounds).flatMap fun (scope, cs) =>
    groupLines scope cs)

def indexTitle : String := "API Reference"

end DoxPages.Page
