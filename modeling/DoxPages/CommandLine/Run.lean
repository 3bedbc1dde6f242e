import DoxPages.CommandLine.Arguments
import DoxPages.Conversion.Convert

/-!
# Running a command line

-/

namespace DoxPages.CommandLine

/-- What a run leaves behind. -/
structure Report where
  /-- The exit status, unless the program crashed. -/
  exit : Except Crash Nat
  out : String
  err : String
  tree : Tree

namespace Arguments

/-- The least level that is shown. -/
def level (a : Arguments) : Level :=
  if a.quiet then .warning else if a.verbose then .debug else .info

def plan (a : Arguments) (here : Location) : Plan where
  here := here
  config := a.config
  output := a.output
  generator := if a.skipGenerator then none else some a.generator
  copyTo := a.copyTo

/-- Carries out what the arguments ask for. -/
def run (a : Arguments) (programs : Programs) (here : Location) (tree : Tree) : Report :=
  let (exit, s) := ((a.plan here).carryOut programs).run.run { tree }
  { exit
    out := Text.unlines s.printed
    err := String.join ((s.log.above a.level).map Event.line)
    tree := s.tree }

end Arguments

end DoxPages.CommandLine
