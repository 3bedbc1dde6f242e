import DoxPages.Config.Options
import DoxPages.Conversion.Generator
import DoxPages.Conversion.Pages
import DoxPages.Project.Discovery
import DoxPages.Source.Load

/-!
# Converting projects

A project is converted in four steps: the generator writes its documents, the
documents are loaded and built into pages, the pages are written, and they may be
copied. A project that fails does not keep the others from being converted.
-/

namespace DoxPages

/-- What is to be done with the projects that are found. -/
structure Plan where
  here : Location
  config : Path
  output : Option Path := none
  /-- The generator's command, or none if its documents are there already. -/
  generator : Option String := some "doxygen"
  copyTo : Option Path := none
  deriving Repr, Inhabited

namespace Project

/-- The pages of a project, by page id. -/
def pages (p : Project) (read? : Path → Option String) : Reported (Except Failure Docs.Builder) :=
  match Options.ofSettings p.settings with
  | .error (.config e) => pure (.error (.config e))
  | .error (.shape e) => pure (.error (.crash (.settings e)))
  | .ok options => do
    match ← Source.loadModel read? p.xmlDir options.compoundKinds with
    | .error e => pure (.error (.input e))
    | .ok model =>
      match ← Docs.Builder.build { options } model with
      | (_, some e) => pure (.error (.config e))
      | (b, none) => pure (.ok b)

/-- Converts a project and counts the pages that are written. -/
def convert (plan : Plan) (programs : Programs) (p : Project) : Run Nat := do
  Run.report (.processing p.input)
  match plan.generator with
  | none => Run.report (.skippingGenerator p.xmlDir)
  | some generator => discard (p.generate plan.here programs generator)
  let tree := (← get).tree
  let b ← Run.orFail id (← Run.take (p.pages (tree.read? plan.here)))
  let compounds ← Run.writePages plan.here p.pageDir b.compounds
  let index ← Run.writeIndex plan.here p.pageDir p.index b
  let files := compounds ++ [index]
  Run.print s!"Generated {files.length} Markdown pages into: {p.pageDir}"
  plan.copyTo.forM (Run.copyPages plan.here files)
  return files.length

/-- Converts a project, says in the log if that failed, and answers whether it did. -/
def attempt (plan : Plan) (programs : Programs) (p : Project) :
    ExceptT Crash (StateM Session) Bool := do
  match ← (p.convert plan programs).run with
  | .ok _ => return false
  | .error e =>
    let event ← e.event p.input
    modify fun s => { s with log := s.log ++ [event] }
    return true

end Project

namespace Plan

/-- Converts every project; the exit status is one if any of them failed. -/
def carryOut (plan : Plan) (programs : Programs) : ExceptT Crash (StateM Session) Nat := do
  let found := Project.discover (← get).tree plan.here plan.config plan.output
  modify fun s => { s with log := s.log ++ found.log }
  match found.value with
  | none => throw .endless
  | some (.error e) =>
    modify fun s => { s with log := s.log ++ [.configFailed e.text] }
    return 1
  | some (.ok projects) =>
    let failed ← projects.mapM (Project.attempt plan programs)
    match failed.count true with
    | 0 => return 0
    | count =>
      modify fun s => { s with log := s.log ++ [.projectsFailed count] }
      return 1

end Plan

end DoxPages
