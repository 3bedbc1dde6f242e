import DoxPages.Text.Numeral
import DoxPages.Yaml.Cursor

/-!
# Texts of YAML scalars

Plain, quoted and block scalars, read from a cursor. Lines are folded: a single
line break reads as a space, and of more than one the first is left out. A block
scalar keeps its breaks or folds them, by its style, and its last ones are kept,
cut to one, or dropped.
-/

namespace DoxPages.Yaml

/-! ## Plain scalars -/

def isFlowIndicator (c : Char) : Bool :=
  c == ',' || c == '[' || c == ']' || c == '{' || c == '}'

/-- Whether a colon with the given character behind it ends a plain scalar. -/
def endsKey (inFlow : Bool) (behind : Option Char) : Bool :=
  endsOr (fun c => isBlankOrBreak c || (inFlow && isFlowIndicator c)) behind

/-- The characters of a plain scalar up to white space. -/
def plainRun (inFlow : Bool) : List Char → List Char
  | [] => []
  | c :: cs =>
    if isBlankOrBreak c || (c == ':' && endsKey inFlow cs.head?)
        || (inFlow && (c == '?' || isFlowIndicator c)) then []
    else c :: plainRun inFlow cs

/-- What a first break and the ones behind it fold to. -/
def foldBreaks (first : Char) (others : List Char) : List Char :=
  if first ≠ '\n' then first :: others else if others = [] then [' '] else others

/-- Breaks and the spaces between them; none if a document marker stands at a line's start. -/
def plainBreaks : (fuel : Nat) → Cursor → Option (List Char) × Cursor
  | 0, c => (some [], c)
  | fuel + 1, c =>
    let c := c.skipSpaces
    match c.lineBreak? with
    | none => (some [], c)
    | some (b, c) =>
      if c.isDocumentMarker then (none, c)
      else
        let (more, c) := plainBreaks fuel c
        (more.map (b :: ·), c)

/-- White space inside a plain scalar as it reads there, and whether it held a break. -/
def plainSpaces (c : Cursor) : List Char × Cursor × Bool :=
  let (spaces, c) := c.span (· == ' ')
  match c.lineBreak? with
  | none => (spaces, c, false)
  | some (b, c) =>
    if c.isDocumentMarker then ([], c, true)
    else
      let (others, c) := plainBreaks (c.rest.length + 1) c
      ((others.map (foldBreaks b)).getD [], c, true)

/-- A plain scalar. `margin` is the least column of its lines in block context, `space` the
white space before the next run, and the flag in the answer says that it ends behind a break. -/
def plainFrom (inFlow : Bool) (margin : Int) :
    (fuel : Nat) → (space : List Char) → Bool → Cursor → List Char × Cursor × Bool
  | 0, _, broken, c => ([], c, broken)
  | fuel + 1, space, broken, c =>
    let run := plainRun inFlow c.rest
    if c.peek = some '#' ∨ run = [] then ([], c, broken)
    else
      let (space', c, broken) := plainSpaces (c.skip run.length)
      if space' = [] ∨ (!inFlow ∧ (c.column : Int) < margin) then (space ++ run, c, broken)
      else
        let (more, c, broken) := plainFrom inFlow margin fuel space' broken c
        (space ++ run ++ more, c, broken)

def plain (inFlow : Bool) (margin : Int) (c : Cursor) : List Char × Cursor × Bool :=
  plainFrom inFlow margin (c.rest.length + 1) [] false c

/-! ## Quoted scalars -/

/-- Breaks inside a quoted scalar; no document marker may stand at a line's start. -/
def quotedBreaks? : (fuel : Nat) → Cursor → Option (List Char × Cursor)
  | 0, _ => none
  | fuel + 1, c =>
    if c.isDocumentMarker then none
    else
      let c := (c.span fun ch => ch == ' ' || ch == '\t').2
      match c.lineBreak? with
      | none => some ([], c)
      | some (b, c) => (quotedBreaks? fuel c).map fun (more, c) => (b :: more, c)

/-- White space inside a quoted scalar as it reads there. -/
def quotedSpaces? (c : Cursor) : Option (List Char × Cursor) :=
  let (blanks, c) := c.span fun ch => ch == ' ' || ch == '\t'
  if c.atEnd then none
  else match c.lineBreak? with
    | none => some (blanks, c)
    | some (b, c) =>
      (quotedBreaks? (c.rest.length + 1) c).map fun (others, c) => (foldBreaks b others, c)

/-- The characters with an escape of one letter. -/
def shortEscapes : List (Char × Char) := [
  ('0', '\x00'), ('a', '\x07'), ('b', '\x08'), ('t', '\t'), ('\t', '\t'), ('n', '\n'),
  ('v', '\x0b'), ('f', '\x0c'), ('r', '\r'), ('e', '\x1b'), (' ', ' '), ('"', '"'),
  ('\\', '\\'), ('/', '/'), ('N', '\x85'), ('_', '\xa0'), ('L', '\u2028'), ('P', '\u2029')]

/-- How many digits follow the letter of a numeric escape. -/
def escapeDigits : List (Char × Nat) := [('x', 2), ('u', 4), ('U', 8)]

def charOf? (n : Nat) : Option Char :=
  if h : n.isValidChar then some (Char.ofNatAux n h) else none

/-- What an escape reads as, from behind its backslash. -/
def escape? (c : Cursor) : Option (List Char × Cursor) := do
  let ch ← c.peek
  match shortEscapes.lookup ch, escapeDigits.lookup ch with
  | some image, _ => some ([image], c.next)
  | none, some count =>
    let digits := c.next.rest.take count
    if digits.length < count then none
    let image ← charOf? (← Text.inBase? 16 digits)
    some ([image], c.skip (count + 1))
  | none, none =>
    let (_, c) ← c.lineBreak?
    quotedBreaks? (c.rest.length + 1) c

/-- The rest of a quoted scalar up to its closing quote, and the cursor behind that. -/
def quotedFrom? (double : Bool) : (fuel : Nat) → Cursor → Option (List Char × Cursor)
  | 0, _ => none
  | fuel + 1, c => do
    let ch ← c.peek
    let go (read : List Char) (c : Cursor) := do
      let (more, c) ← quotedFrom? double fuel c
      return (read ++ more, c)
    if double then
      if ch = '"' then some ([], c.next)
      else if ch = '\\' then
        let (read, c) ← escape? c.next
        go read c
      else if isBlankOrBreak ch then
        let (read, c) ← quotedSpaces? c
        go read c
      else go [ch] c.next
    else if ch = '\'' then
      if c.peekAt 1 = some '\'' then go ['\''] (c.skip 2) else some ([], c.next)
    else if isBlankOrBreak ch then
      let (read, c) ← quotedSpaces? c
      go read c
    else go [ch] c.next

/-- A quoted scalar; the cursor stands at its opening quote. -/
def quoted? (c : Cursor) : Option (List Char × Cursor) :=
  quotedFrom? (c.peek == some '"') (c.rest.length + 1) c.next

/-! ## Block scalars -/

inductive Chomping where
  | keep | clip | strip
  deriving DecidableEq, Repr

/-- What stands behind the style of a block scalar. -/
structure BlockHeader where
  chomping : Chomping := .clip
  indent : Option Nat := none
  deriving Repr

def chomping? (c : Cursor) : Option (Chomping × Cursor) :=
  match c.peek with
  | some '+' => some (.keep, c.next)
  | some '-' => some (.strip, c.next)
  | _ => none

/-- An indentation from one to nine; a digit zero is an error. -/
def blockIndent? (c : Cursor) : Option (Option Nat × Cursor) :=
  match c.peek with
  | some ch =>
    if ch = '0' then none
    else if ch.isDigit then some (some (ch.toNat - '0'.toNat), c.next)
    else some (none, c)
  | none => some (none, c)

/-- The header in either order, and the cursor on the line below. -/
def blockHeader? (c : Cursor) : Option (BlockHeader × Cursor) := do
  let (header, c) ← match chomping? c with
    | some (chomping, c) => do
      let (indent, c) ← blockIndent? c
      pure (BlockHeader.mk chomping indent, c)
    | none => do
      let (indent, c) ← blockIndent? c
      match indent, chomping? c with
      | some _, some (chomping, c) => pure (BlockHeader.mk chomping indent, c)
      | _, _ => pure (BlockHeader.mk .clip indent, c)
  if !endsOr (fun ch => ch == ' ' || isBreak ch) c.peek then none
  return (header, ← c.skipLine?)

/-- Leading lines without text: their breaks, and the widest indentation among them and before
the first text. -/
def blockLead : (fuel : Nat) → Cursor → List Char × Nat × Cursor
  | 0, c => ([], 0, c)
  | fuel + 1, c =>
    let c := c.skipSpaces
    match c.lineBreak? with
    | none => ([], c.column, c)
    | some (b, c') =>
      let (breaks, widest, c'') := blockLead fuel c'
      (b :: breaks, max c.column widest, c'')

def skipIndent (indent : Nat) (c : Cursor) : Cursor :=
  c.skip (min (indent - c.column) (c.rest.takeWhile (· == ' ')).length)

/-- Breaks of lines that hold at most their indentation. -/
def blockBreaks (indent : Nat) : (fuel : Nat) → Cursor → List Char × Cursor
  | 0, c => ([], c)
  | fuel + 1, c =>
    let c := skipIndent indent c
    match c.lineBreak? with
    | none => ([], c)
    | some (b, c) =>
      let (more, c) := blockBreaks indent fuel c
      (b :: more, c)

def isBlankStart (c : Cursor) : Bool := c.peek == some ' ' || c.peek == some '\t'

/-- The lines of a block scalar: its text, its last break, and the breaks behind that. -/
def blockLines (folded : Bool) (indent : Nat) :
    (fuel : Nat) → (breaks : List Char) → Cursor → List Char × List Char × List Char × Cursor
  | 0, breaks, c => ([], [], breaks, c)
  | fuel + 1, breaks, c =>
    if c.column = indent ∧ !c.atEnd then
      let blankStart := isBlankStart c
      let (line, c) := c.span fun ch => !isBreak ch
      let lineBreak := (c.lineBreak?.map fun b => [b.1]).getD []
      let (breaks', c) := blockBreaks indent (c.rest.length + 1) c.skipBreak
      if c.column = indent ∧ !c.atEnd then
        let joint :=
          if folded ∧ lineBreak = ['\n'] ∧ !blankStart ∧ !isBlankStart c then
            if breaks' = [] then [' '] else []
          else lineBreak
        let (more, last, tail, c) := blockLines folded indent fuel breaks' c
        (breaks ++ line ++ joint ++ more, last, tail, c)
      else (breaks ++ line, lineBreak, breaks', c)
    else ([], [], breaks, c)

/-- A block scalar; the cursor stands at its style. `parent` is the indentation around it. -/
def block? (parent : Int) (c : Cursor) : Option (List Char × Cursor) := do
  let folded := c.peek == some '>'
  let (header, c) ← blockHeader? c.next
  let least := max 1 (parent + 1).toNat
  let (indent, breaks, c) := match header.indent with
    | some n =>
      let indent := least + n - 1
      let (breaks, c) := blockBreaks indent (c.rest.length + 1) c
      (indent, breaks, c)
    | none =>
      let (breaks, widest, c) := blockLead (c.rest.length + 1) c
      (max least widest, breaks, c)
  let (text, last, tail, c) := blockLines folded indent (c.rest.length + 1) breaks c
  let ending := match header.chomping with
    | .keep => last ++ tail
    | .clip => last
    | .strip => []
  return (text ++ ending, c)

end DoxPages.Yaml
