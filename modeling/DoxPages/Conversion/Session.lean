import DoxPages.Config.Error
import DoxPages.Files.Tree
import DoxPages.Input.Error
import DoxPages.Log.Reported
import DoxPages.Text.Blank

/-!
# Sessions

What a conversion changes: the files, the log, and the lines it prints. A step
that fails leaves all of them as far as it got. Steps find relative paths from
the directory `here`.

A crash is a failure that nothing is prepared for. It ends the program on the
spot: there is no line in the log about it, and no exit status of its own.
-/

namespace DoxPages

inductive Crash where
  /-- The search for projects does not come to an end. -/
  | endless
  /-- A heading is asked for on a level beyond all counts. -/
  | overflow
  | settings (e : ShapeError)
  /-- Namespaces cannot be put in order, because one is shown as something else than a text. -/
  | unordered
  deriving DecidableEq, Repr

inductive Failure where
  | input (e : InputError)
  | config (e : ConfigError)
  /-- The generator ended with a status other than zero and this complaint. -/
  | generator (status : Int) (complaint : String)
  /-- A file or program cannot be used as it is. -/
  | files
  | crash (c : Crash)
  deriving DecidableEq, Repr

/-- What the log says about a project that failed, unless that ends the program. -/
def Failure.event (project : Path) : Failure → Except Crash Event
  | input e => .ok (.projectFailed project e.text)
  | config e => .ok (.projectFailed project e.message)
  | generator status complaint =>
    .ok (.generatorFailed project status (Text.onChars Text.strip complaint))
  | files => .ok (.projectFailed project "OSError")
  | crash c => .error c

structure Session where
  tree : Tree
  log : Log := []
  printed : List String := []
  deriving Repr, Inhabited

abbrev Run := ExceptT Failure (StateM Session)

namespace Run

variable {α : Type}

def report (e : Event) : Run Unit := modify fun s => { s with log := s.log ++ [e] }

/-- Takes a value and puts its log behind the log of the session, as far as that goes. -/
def take (r : Reported α) : Run α := do
  modify fun s => { s with log := s.log ++ r.stopped.getD r.log }
  if r.stopped.isSome then throw (.crash .overflow)
  return r.value

def orFail (f : α → Failure) {β : Type} : Except α β → Run β
  | .ok b => pure b
  | .error a => throw (f a)

def print (line : String) : Run Unit := modify fun s => { s with printed := s.printed ++ [line] }

/-- Makes a directory and all that lead to it. -/
def makeDirs (here : Location) (p : Path) : Run Unit := do
  let (tree, done) := (← get).tree.makeDirs (if p.isAbsolute then [] else here) p.parts
  modify fun s => { s with tree }
  if !done then throw .files

def write (here : Location) (p : Path) (text : String) : Run Unit := do
  match (← get).tree.write? here p text with
  | some tree => modify fun s => { s with tree }
  | none => throw .files

/-- Copies a file over another one, which must not be the same. -/
def copy (here : Location) (source target : Path) : Run Unit := do
  let t := (← get).tree
  match t.read? here source with
  | none => throw .files
  | some text =>
    if t.locate? here source = t.locate? here target then throw .files
    write here target text

end Run

end DoxPages
