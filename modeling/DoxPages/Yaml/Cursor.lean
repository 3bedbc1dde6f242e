import DoxPages.Text.Basic

/-!
# Positions in a YAML text

A cursor is the rest of a text with its index, line and column. A byte order mark
takes no column. Line breaks are the line feed, the next line character, and the
separators of lines and paragraphs; only the first two read as line feeds.
-/

namespace DoxPages.Yaml

def isBreak (c : Char) : Bool := c == '\n' || c == '\x85' || c == '\u2028' || c == '\u2029'

def isBlankOrBreak (c : Char) : Bool := c == ' ' || c == '\t' || isBreak c

/-- Whether a text ends here or goes on with a character of a class. -/
def endsOr (p : Char → Bool) (c : Option Char) : Bool := c.all p

/-- The characters that may stand in a YAML text. -/
def isAllowed (c : Char) : Bool :=
  Text.inRanges [(9, 10), (13, 13), (0x20, 0x7E), (0x85, 0x85), (0xA0, 0xD7FF), (0xE000, 0xFFFD),
    (0x10000, 0x10FFFF)] c

structure Cursor where
  rest : List Char
  index : Nat := 0
  line : Nat := 0
  column : Nat := 0
  deriving Repr, Inhabited

namespace Cursor

def peek (c : Cursor) : Option Char := c.rest.head?

def peekAt (c : Cursor) (n : Nat) : Option Char := c.rest[n]?

def atEnd (c : Cursor) : Bool := c.rest.isEmpty

/-- The cursor behind the next character. -/
def next (c : Cursor) : Cursor :=
  match c.rest with
  | [] => c
  | ch :: rest =>
    if isBreak ch then ⟨rest, c.index + 1, c.line + 1, 0⟩
    else ⟨rest, c.index + 1, c.line, if ch = '\ufeff' then c.column else c.column + 1⟩

def skip (c : Cursor) : Nat → Cursor
  | 0 => c
  | n + 1 => c.next.skip n

/-- The run of characters of a class, and the cursor behind it. -/
def span (c : Cursor) (p : Char → Bool) : List Char × Cursor :=
  let run := c.rest.takeWhile p
  (run, c.skip run.length)

def skipSpaces (c : Cursor) : Cursor := (c.span (· == ' ')).2

/-- Behind a comment, if there is one here. -/
def skipComment (c : Cursor) : Cursor :=
  if c.peek = some '#' then (c.span fun ch => !isBreak ch).2 else c

/-- Reads a line break. -/
def lineBreak? (c : Cursor) : Option (Char × Cursor) :=
  match c.rest with
  | ch :: _ =>
    if isBreak ch then some (if ch = '\x85' then '\n' else ch, c.next) else none
  | [] => none

/-- Behind a line break, if there is one here. -/
def skipBreak (c : Cursor) : Cursor := (c.lineBreak?.map Prod.snd).getD c

/-- Behind the rest of a line that holds nothing but spaces and a comment. -/
def skipLine? (c : Cursor) : Option Cursor :=
  let c := c.skipSpaces.skipComment
  if endsOr isBreak c.peek then some c.skipBreak else none

/-- Whether three given characters stand here with white space behind them. -/
def isMarker (c : Cursor) (ch : Char) : Bool :=
  c.rest.take 3 = [ch, ch, ch] && endsOr isBlankOrBreak (c.peekAt 3)

/-- Whether a document starts or ends here. -/
def isDocumentMarker (c : Cursor) : Bool := c.isMarker '-' || c.isMarker '.'

end Cursor

end DoxPages.Yaml
