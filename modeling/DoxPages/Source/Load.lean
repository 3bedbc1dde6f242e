import DoxPages.Assoc
import DoxPages.Input.Error
import DoxPages.Log.Reported
import DoxPages.Markup.Xml.Tree

/-!
# Loading the documents of a model

The index lists the compounds, each in a document of its own. Documents are read
through `read?`, which has no text for what cannot be read.
-/

namespace DoxPages.Source

/-- The tree of an XML document. -/
def loadXml (read? : Path → Option String) (path : Path) : Except InputError Node :=
  match read? path with
  | none => .error ⟨path, .unreadableXml⟩
  | some source =>
    match Node.ofXml? source with
    | none => .error ⟨path, .malformedXml⟩
    | some root => .ok root

def indexOf (root : Node) : Except InputFault (List Entry) :=
  if root.tag ≠ "doxygenindex" then .error (.unexpectedIndex root.tag)
  else match entryProblems root with
    | [] => .ok (readEntries root)
    | problems => .error (.invalidIndex problems)

def compoundOf (root : Node) : Except InputFault Compound :=
  if root.tag ≠ "doxygen" then .error (.unexpectedCompound root.tag)
  else match root.first? "compounddef" with
    | none => .error .noCompound
    | some n =>
      match compoundProblems n with
      | [] => .ok (readCompound n)
      | problems => .error (.invalidCompound problems)

def loadIndex (read? : Path → Option String) (path : Path) : Except InputError (List Entry) := do
  (indexOf (← loadXml read? path)).mapError (⟨path, ·⟩)

def loadCompound (read? : Path → Option String) (path : Path) : Except InputError Compound := do
  (compoundOf (← loadXml read? path)).mapError (⟨path, ·⟩)

/-- Loads the compounds of an index into a model, up to the first that cannot be used. -/
def loadEntries (read? : Path → Option String) (dir : Path) (model : Model) :
    List Entry → Reported (Except InputError Model)
  | [] => pure (.ok model)
  | e :: es => do
    let path := dir / Path.ofString (e.refid ++ ".xml")
    Reported.report (.loadingCompound (if e.name = "" then e.refid else e.name) path)
    match loadCompound read? path with
    | .error error => pure (.error error)
    | .ok c => loadEntries read? dir (Assoc.put c.id c model) es

/-- Loads the index of a directory and every compound of the given kinds. -/
def loadModel (read? : Path → Option String) (dir : Path) (kinds : List String) :
    Reported (Except InputError Model) := do
  let index := dir / Path.ofString "index.xml"
  Reported.report (.loadingIndex index)
  match loadIndex read? index with
  | .error error => pure (.error error)
  | .ok entries =>
    match ← loadEntries read? dir [] (entries.filter fun e => kinds.contains e.kind) with
    | .error error => pure (.error error)
    | .ok model => do
      Reported.report (.loadedCompounds model.length dir)
      pure (.ok model)

end DoxPages.Source
