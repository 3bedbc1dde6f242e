import DoxPages.CommandLine.Run
import DoxPages.Shell.Run

/-!
# The program

Reads the files below the working directory, runs the command line on them, and
writes back what has changed. A file that is no text is left aside, and one that
starts like a script can be run.
-/

namespace DoxPages

/-- Adds an entry of a directory, with all that is below it. -/
partial def readEntry (dir : Location) (t : Tree) (e : IO.FS.DirEntry) : IO Tree := do
  let loc := dir ++ [e.fileName]
  if ← e.path.isDir then
    (← e.path.readDir).foldlM (readEntry loc) (t.set loc .dir)
  else
    try
      let text ← IO.FS.readFile e.path
      return t.set loc (.file text (text.startsWith "#!"))
    catch _ => return t

/-- Writes the directories and files that are new or have changed. -/
def writeBack (before after : Tree) : IO Unit := do
  let path (loc : Location) := (Path.mk 1 loc).toString
  for (loc, e) in after.entries do
    if e = .dir ∧ (before.entry? loc).isNone then IO.FS.createDirAll (path loc)
  for (loc, text) in before.changes after do
    IO.FS.writeFile (path loc) text

/-- Runs a command line in the working directory. A program that crashes has the status one. -/
def runHere (a : CommandLine.Arguments) : IO UInt32 := do
  let dir ← IO.currentDir
  let here := (Path.ofString dir.toString).parts
  let tree ← (← dir.readDir).foldlM (readEntry here) (({} : Tree).makeDirs [] here).1
  let r := a.run Shell.programs here tree
  writeBack tree r.tree
  IO.print r.out
  IO.eprint r.err
  match r.exit with
  | .ok status => return status.toUInt32
  | .error _ => return 1

end DoxPages

def main (args : List String) : IO UInt32 := do
  let docs ← IO.getEnv DoxPages.CommandLine.copyVariable
  match DoxPages.CommandLine.Arguments.ofWords docs args with
  | .ok a => DoxPages.runHere a
  | .error e =>
    IO.eprintln e.message
    return e.status.toUInt32
