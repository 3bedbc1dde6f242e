import DoxPages.Config.Merge
import DoxPages.Docs.Options
import DoxPages.Input.Error
import DoxPages.Text.Lines
import DoxPages.Yaml.Value

/-!
# Loading settings

Settings are a mapping in YAML; a document without a value stands for the empty
one. They are used only if no field is of the wrong shape.
-/

namespace DoxPages.Settings

/-- The name of the settings of a project. -/
def fileName : String := "doxymd.yml"

/-- The settings that hold where none are given. -/
def defaults : Settings :=
  let strings (ss : List String) := Value.list (ss.map .string)
  [(.string "output", .string "docs"), (.string "prefix", .string ""),
    (.string "index", .string "index.md"), (.string "file_patterns", strings ["*.h", "*.hpp"]),
    (.string "compound_kinds", strings defaultCompoundKinds)]

def ofValue : Value → Except InputFault Settings
  | .scalar .null => .ok []
  | .mapping entries =>
    match problems entries with
    | [] => .ok entries
    | ps => .error (.invalidConfig ps)
  | v => .error (.notMapping v.typeName)

def ofText (source : String) : Except InputFault Settings :=
  match Value.ofYaml? (Text.onChars Text.normalizeNewlines source) with
  | some v => ofValue v
  | none => .error .malformedConfig

/-- The settings in a document. -/
def read (read? : Path → Option String) (path : Path) : Except InputError Settings :=
  match read? path with
  | none => .error ⟨path, .unreadableConfig⟩
  | some source => (ofText source).mapError (⟨path, ·⟩)

/-- The settings in a document over the defaults. -/
def load (read? : Path → Option String) (path : Path) : Except InputError Settings :=
  (read read? path).map (merge defaults)

end DoxPages.Settings
