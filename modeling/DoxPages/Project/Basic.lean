import DoxPages.Config.Load

/-!
# Projects

A project is a directory of headers with its settings and the directory that
receives all that is made for it.
-/

namespace DoxPages

structure Project where
  input : Path
  output : Path
  settings : Settings
  deriving Repr, Inhabited

namespace Project

/-- Where the generator leaves its documents. -/
def xmlDir (p : Project) : Path := p.output / Path.ofString "xml"

/-- Where the pages go. -/
def pageDir (p : Project) : Path := p.output / Path.ofString "out"

def pagePrefix (p : Project) : String :=
  ((Settings.given? p.settings "prefix").bind Value.string?).getD ""

/-- The file of the index page. -/
def index (p : Project) : String :=
  ((Settings.given? p.settings "index").bind Value.string?).getD "index.md"

def filePatterns (p : Project) : List String :=
  ((Settings.given? p.settings "file_patterns").map Value.strings).getD []

/-- The project of settings that stand in a directory, which is its input if they name none. -/
def ofSettings (settings : Settings) (dir output : Path) : Project where
  input := match (Settings.given? settings "input").bind Value.string? with
    | some input => dir.resolve (Path.ofString input)
    | none => dir
  output := output
  settings := settings

end Project

end DoxPages
