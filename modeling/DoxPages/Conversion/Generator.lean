import DoxPages.Conversion.Session
import DoxPages.Project.Doxyfile
import DoxPages.Text.Lines

/-!
# Running the generator

A generator is a program that is started in the directory of a project with the
path of its settings file, and leaves documents behind.
-/

namespace DoxPages

/-- What a program that has ended leaves behind. -/
structure Outcome where
  tree : Tree
  status : Int
  out : String
  err : String
  deriving Repr, Inhabited

/-- Runs a command in a directory; there is no outcome if it cannot be started. -/
abbrev Programs := Tree → (dir : Path) → (command : List String) → Option Outcome

namespace Project

/-- What the generator says on the way, line by line. -/
def complaints (err : String) : List String :=
  ((Text.lines err.toList).filter fun line => !Text.allBlank line).map String.ofList

/-- Writes the generator's settings file. -/
def writeDoxyfile (here : Location) (p : Project) : Run Path := do
  Run.makeDirs here p.output
  Run.write here p.doxyfilePath p.doxyfile
  return p.doxyfilePath

def generate (here : Location) (programs : Programs) (generator : String) (p : Project) :
    Run Outcome := do
  let command := [generator, (← p.writeDoxyfile here).toString]
  Run.report (.running command)
  match programs (← get).tree p.input command with
  | none => throw .files
  | some o =>
    modify fun s => { s with tree := o.tree }
    if o.status ≠ 0 then throw (.generator o.status o.err)
    (complaints o.err).forM fun line => Run.report (.generatorSays line)
    return o

end Project

end DoxPages
