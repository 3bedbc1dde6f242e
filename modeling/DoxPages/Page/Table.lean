import DoxPages.Text.Basic

/-!
# Markdown tables

-/

namespace DoxPages

open Text

/-- A text made safe for one cell of a table. -/
def tableCell (cs : List Char) : List Char :=
  replaceChar '\n' "<br/>".toList (replaceChar '|' ['\\', '|'] cs)

def tableLine (cells : List String) : String := "| " ++ joinWith " | " cells ++ " |"

/-- A table with a line of headers; nothing at all without rows. -/
def markdownTable (headers : List String) (rows : List (List String)) : String :=
  if rows = [] then ""
  else
    joinWith "\n" (tableLine headers :: tableLine (headers.map fun _ => "---")
      :: rows.map fun row => tableLine (row.map (onChars tableCell)))

end DoxPages
