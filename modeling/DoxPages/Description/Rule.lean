/-!
# Rules for description elements

Each known tag has one rule; tags that need nothing but their content wrapped
are data. A tag without a rule is unsupported.
-/

namespace DoxPages

inductive Rule where
  /-- Writes a fixed text in place of the element. -/
  | literal (text : String)
  /-- Writes the content between two texts. -/
  | wrap (before after : String)
  /-- Writes the content between two texts, as code. -/
  | code (before after : String)
  | nothing
  | para
  | list (numbered : Bool)
  | item
  | parameters
  | listing
  | verbatim
  | note
  | formula
  | subsection (level : Nat)
  | title
  | heading
  | link
  | reference
  | row
  | cell
  deriving DecidableEq, Repr

namespace Rule

def content : Rule := wrap "" ""

def table : List (String × Rule) := [
  ("ref", reference),
  ("sp", literal " "),
  ("nonbreakablespace", literal "&nbsp;"),
  ("ensp", literal "&ensp;"),
  ("emsp", literal "&emsp;"),
  ("thinsp", literal "&thinsp;"),
  ("mdash", literal "&mdash;"),
  ("ndash", literal "&ndash;"),
  ("linebreak", literal "<br/>"),
  ("hruler", literal "---"),
  ("emphasis", wrap "*" "*"),
  ("bold", wrap "**" "**"),
  ("strike", wrap "~~" "~~"),
  ("underline", wrap "<u>" "</u>"),
  ("superscript", wrap "<sup>" "</sup>"),
  ("subscript", wrap "<sub>" "</sub>"),
  ("para", para),
  ("orderedlist", list true),
  ("itemizedlist", list false),
  ("listitem", item),
  ("parameterlist", parameters),
  ("parameteritem", wrap "* " "\n"),
  ("parametername", code "`" "` "),
  ("computeroutput", code "`" "`"),
  ("programlisting", listing),
  ("codeline", wrap "" "\n"),
  ("preformatted", code "\n<pre>" "</pre>\n"),
  ("verbatim", verbatim),
  ("xrefsect", wrap "\n> " ""),
  ("xreftitle", wrap "**" ":** "),
  ("simplesect", note),
  ("formula", formula),
  ("sect1", subsection 1),
  ("sect2", subsection 2),
  ("sect3", subsection 3),
  ("sect4", subsection 4),
  ("title", title),
  ("heading", heading),
  ("ulink", link),
  ("table", wrap "\n" "\n"),
  ("row", row),
  ("entry", cell),
  ("anchor", nothing),
  ("highlight", content),
  ("parameterdescription", content),
  ("parameternamelist", content),
  ("xrefdescription", content),
  ("briefdescription", content),
  ("detaileddescription", content),
  ("inbodydescription", content),
  ("description", content),
  ("type", content),
  ("defval", content),
  ("", content)]

def ofTag? (tag : String) : Option Rule := table.lookup tag

end Rule

/-- How a note of a supported kind opens. -/
def noteOpening? (kind : String) : Option String :=
  [("attention", "> "),
   ("return", "\n### Returns\n"),
   ("see", "**See also**: "),
   ("note", "> **Note**: "),
   ("warning", "> **Warning**: "),
   ("remark", "\n### Remarks\n")].lookup kind

/-- The title of a parameter list. -/
def parametersTitle (kind : String) : String :=
  ([("param", "Parameters"),
    ("retval", "Return values"),
    ("exception", "Exceptions"),
    ("templateparam", "Template parameters")].lookup kind).getD "Parameters"

end DoxPages
