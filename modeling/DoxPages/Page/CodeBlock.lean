import DoxPages.Text.Blank

/-!
# Fenced code blocks

-/

namespace DoxPages

open Text

/-- A fence longer than three backticks that stand in the code. -/
def fenceFor (code : String) : String :=
  if hasInfix ['`', '`', '`'] code.toList then "````" else "```"

def codeBlock (language code : String) : String :=
  fenceFor code ++ language ++ "\n" ++ onChars stripRight code ++ "\n" ++ fenceFor code

end DoxPages
