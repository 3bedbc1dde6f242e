import DoxPages.Files.Tree
import DoxPages.Log.Reported
import DoxPages.Project.Basic

/-!
# Finding projects

Settings may list directories with projects of their own. A directory with a
settings file is looked into in turn: its settings are laid over those it
inherits. Any other directory is a project as it is. Settings that list no
directory describe the one project they stand in. Nothing is done against a
directory that is listed below itself: the search there does not end.
-/

namespace DoxPages

namespace Project

/-- What one search finds, with its log; nothing, not even an error, if it does not come to an
end. -/
abbrev Found := Reported (Option (Except InputError (List Project)))

/-- The projects of a search that has found some. -/
def Found.projects? (found : Found) : Option (List Project) := found.value.bind Except.toOption

/-- The settings that no directory below inherits. -/
def ownFields : List String := ["input", "output", "projects"]

def inherited (s : Settings) : Settings := s.filter fun e => !Settings.isOneOf ownFields e.1

/-- The directories that settings list, in order. -/
def listed (s : Settings) (dir : Path) : List Path :=
  (((Settings.given? s "projects").map Value.strings).getD []).map fun p =>
    dir.resolve (Path.ofString p)

/-- The output of a listed directory, below that of the settings that list it. -/
def outputBelow (output : Path) (child : Settings) (dir : Path) : Path :=
  output / Path.ofString (((Settings.given? child "output").bind Value.string?).getD dir.name)

/-- What searches find one after another, up to the first that fails. -/
def inTurn (search : Path → Found) : List Path → Found
  | [] => pure (some (.ok []))
  | dir :: dirs => do
    match ← search dir with
    | some (.ok projects) =>
      match ← inTurn search dirs with
      | some (.ok more) => pure (some (.ok (projects ++ more)))
      | failed => pure failed
    | failed => pure failed

/-- The projects of settings that stand in a directory, to a depth of nesting. -/
def below (t : Tree) : (depth : Nat) → Settings → (dir output : Path) → Found
  | 0, _, _, _ => pure none
  | depth + 1, s, dir, output =>
    match listed s dir with
    | [] => pure (some (.ok [ofSettings s dir output]))
    | dirs => inTurn (fun sub => do
        let file := sub / Path.ofString Settings.fileName
        if t.exists? [] file then
          Reported.report (.loadingSubproject file)
          match Settings.read (t.read? []) file with
          | .error e => pure (some (.error e))
          | .ok child =>
            below t depth (Settings.merge (inherited s) child) sub (outputBelow output child sub)
        else
          let s := Assoc.put (.string "input") (.string sub.toString) (inherited s)
          pure (some (.ok [ofSettings s dir (output / Path.ofString sub.name)]))) dirs

/-- The projects of a settings file. No chain of nested projects that ends is longer than there
are entries in the tree, so that what is not found to that depth is not found at all. -/
def discover (t : Tree) (here : Location) (config : Path) (output : Option Path) : Found := do
  let here : Path := ⟨1, here⟩
  let config := here.resolve config
  match Settings.load (t.read? []) config with
  | .error e => pure (some (.error e))
  | .ok s =>
    let dir := config.parent
    let output := match output with
      | some output => here.resolve output
      | none =>
        dir.resolve (Path.ofString (((Settings.get? s "output").bind Value.string?).getD ""))
    below t (t.entries.length + 2) s dir output

end Project

end DoxPages
