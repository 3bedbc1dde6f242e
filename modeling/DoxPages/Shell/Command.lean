import DoxPages.Text.Basic

/-!
# Shell commands

A script is a list of commands, and a word of a command is a list of pieces that
are put in when it runs: text, parameters, and the output of other commands.
-/

namespace DoxPages.Shell

inductive Direction where
  | read
  | write
  | append
  | duplicate
  /-- The input is written into the script. -/
  | here
  deriving DecidableEq, Repr

mutual

inductive Piece where
  | text (cs : List Char) (quoted : Bool)
  | param (name : String) (quoted : Bool)
  | output (script : List Command) (quoted : Bool)

inductive Redirect where
  | mk (stream : Nat) (direction : Direction) (word : List Piece)

inductive Command where
  | simple (settings : List (String × List Piece)) (words : List (List Piece))
      (redirects : List Redirect)
  | both (first second : Command)
  | either (first second : Command)
  | negate (c : Command)
  | pipe (first second : Command)
  | choice (test thens elses : List Command)
  | each (name : String) (words : List (List Piece)) (body : List Command)
  | group (body : List Command)

end

instance : Inhabited Piece := ⟨.text [] false⟩

instance : Inhabited Command := ⟨.group []⟩

/-! ## Characters -/

def isBlankChar (c : Char) : Bool := c == ' ' || c == '\t'

/-- Characters that end an unquoted word. -/
def endsWord (c : Char) : Bool := isBlankChar c || "\n;&|<>()".toList.contains c

def isNameChar (c : Char) : Bool := c.isAlphanum || c == '_'

/-- Parameters whose name is a single mark. -/
def specialNames : List Char := "#?@*$!-".toList

/-- Characters that a backslash takes the meaning of inside double quotes. -/
def escapable : List Char := ['$', '\x60', '"', '\\']

/-- Words that end or divide a command. -/
def closers : List String := ["then", "elif", "else", "fi", "do", "done", "\x7d"]

end DoxPages.Shell
