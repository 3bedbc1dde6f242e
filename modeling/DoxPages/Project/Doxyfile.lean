import DoxPages.Project.Basic
import DoxPages.Text.Basic

/-!
# The generator's settings file

Its options make the generator write the documents of a project and nothing else.
-/

namespace DoxPages.Project

def doxyfileOptions (p : Project) : List (String × String) :=
  let quoted (s : String) := "\"" ++ s ++ "\""
  [("PROJECT_NAME", quoted p.input.name),
    ("OUTPUT_DIRECTORY", quoted p.output.toString),
    ("INPUT", quoted p.input.toString),
    ("FILE_PATTERNS", Text.joinWith " " p.filePatterns),
    ("RECURSIVE", "YES"),
    ("EXTRACT_ALL", "NO"),
    ("GENERATE_HTML", "NO"),
    ("GENERATE_LATEX", "NO"),
    ("GENERATE_XML", "YES"),
    ("XML_OUTPUT", "xml"),
    ("XML_PROGRAMLISTING", "NO"),
    ("QUIET", "YES")]

def doxyfile (p : Project) : String :=
  Text.unlines (p.doxyfileOptions.map fun (name, value) => name ++ " = " ++ value)

def doxyfilePath (p : Project) : Path := p.output / Path.ofString "Doxyfile"

end DoxPages.Project
