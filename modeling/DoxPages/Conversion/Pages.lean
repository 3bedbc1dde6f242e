import DoxPages.Conversion.Session
import DoxPages.Page.Index
import DoxPages.Docs.Builder

/-!
# Writing and copying pages

-/

namespace DoxPages.Run

open Docs

/-- How many pages are written between two lines that say how far it is. -/
def progressStep : Nat := 50

/-- Writes the pages of compounds; `written` of `total` are there already. -/
def writeCompounds (here : Location) (dir : Path) (total : Nat) :
    (written : Nat) → List (String × Compound) → Run (List Path)
  | _, [] => return []
  | written, (page, c) :: cs => do
    let file := dir / Path.ofString (page ++ ".md")
    report (.writing file)
    write here file (Page.compound c)
    let written := written + 1
    if written % progressStep = 0 then print s!"  ... wrote {written}/{total} compounds"
    return file :: (← writeCompounds here dir total written cs)

/-- Writes a page for every compound. -/
def writePages (here : Location) (dir : Path) (compounds : List (String × Compound)) :
    Run (List Path) := do
  makeDirs here dir
  print s!"Writing {compounds.length} compound pages..."
  writeCompounds here dir compounds.length 0 compounds

/-- Writes the index page of all compounds; its id is the name of its file without the
extension. -/
def writeIndex (here : Location) (dir : Path) (index : String) (b : Builder) : Run Path := do
  makeDirs here dir
  if !b.hasOrder then throw (.crash .unordered)
  let file := dir / Path.ofString index
  write here file
    (Page.index (Path.ofString index).stem Page.indexTitle (b.compounds.map Prod.snd))
  return file

/-- Copies pages into one directory under their names. -/
def copyPages (here : Location) (pages : List Path) (target : Path) : Run Unit := do
  makeDirs here target
  pages.forM fun page => do
    report (.copying page target)
    copy here page (target / Path.ofString page.name)
  print s!"Copied {pages.length} pages to: {target}"

end DoxPages.Run
