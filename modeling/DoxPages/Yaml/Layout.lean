import DoxPages.Yaml.Token

/-!
# The token stream of a YAML text

Indentation turns into tokens that open and close block collections. A scalar,
alias or flow collection may turn out to be a key when a colon follows on its
line: its place in the stream is kept, and the token that makes it a key is put
there then.
-/

namespace DoxPages.Yaml

/-- A token that may be a key, by its place in the stream and in the text. -/
structure PossibleKey where
  place : Nat
  index : Nat
  line : Nat
  column : Nat
  /-- Whether nothing but a key may stand here. -/
  required : Bool
  deriving Repr

structure Layout where
  cursor : Cursor
  /-- The tokens so far, the last one first. -/
  tokens : List Token := []
  /-- How many flow collections are open. -/
  depth : Nat := 0
  indent : Int := -1
  /-- The indentations around the present one, the innermost first. -/
  outer : List Int := []
  keyAllowed : Bool := true
  /-- The latest possible key of each depth. -/
  keys : List (Nat × PossibleKey) := []
  deriving Inhabited

namespace Layout

def inFlow (s : Layout) : Bool := s.depth ≠ 0

def column (s : Layout) : Int := s.cursor.column

def push (s : Layout) (t : Token) : Layout := { s with tokens := t :: s.tokens }

/-- Puts a token in front of the one at a place. -/
def insertAt (s : Layout) (place : Nat) (t : Token) : Layout :=
  let behind := s.tokens.length - place
  { s with tokens := s.tokens.take behind ++ t :: s.tokens.drop behind }

/-! ## Possible keys -/

/-- How far behind its start a key may go on. -/
def keyLimit : Nat := 1024

def isStale (s : Layout) (k : PossibleKey) : Bool :=
  k.line ≠ s.cursor.line || s.cursor.index - k.index > keyLimit

/-- Gives up the possible keys that no colon can follow any more. -/
def dropStale? (s : Layout) : Option Layout :=
  if s.keys.any fun (_, k) => s.isStale k && k.required then none
  else some { s with keys := s.keys.filter fun (_, k) => !s.isStale k }

/-- Gives up the possible key of the present depth. -/
def dropKey? (s : Layout) : Option Layout :=
  if (s.keys.lookup s.depth).any (·.required) then none
  else some { s with keys := s.keys.filter fun (d, _) => d ≠ s.depth }

/-- Notes that the next token may be a key. -/
def noteKey? (s : Layout) : Option Layout :=
  if s.keyAllowed then do
    let s ← s.dropKey?
    let c := s.cursor
    let key : PossibleKey :=
      { place := s.tokens.length, index := c.index, line := c.line, column := c.column
        required := !s.inFlow && s.indent == s.column }
    return { s with keys := (s.depth, key) :: s.keys }
  else some s

/-! ## Indentation -/

/-- Closes the block collections that are indented deeper than a column. -/
def unwindFrom (column indent : Int) (tokens : List Token) :
    List Int → Int × List Int × List Token
  | [] => (indent, [], tokens)
  | o :: outer =>
    if column < indent then unwindFrom column o (.blockEnd :: tokens) outer
    else (indent, o :: outer, tokens)

def unwind (s : Layout) (column : Int) : Layout :=
  if s.inFlow then s
  else
    let (indent, outer, tokens) := unwindFrom column s.indent s.tokens s.outer
    { s with indent, outer, tokens }

/-- Opens a block collection at a column and a place, unless it is open already. -/
def openBlock (s : Layout) (column : Int) (place : Nat) (t : Token) : Layout :=
  if s.inFlow ∨ column ≤ s.indent then s
  else { s.insertAt place t with indent := column, outer := s.indent :: s.outer }

/-! ## Tokens -/

/-- Skips what stands between tokens; in block context a new line may start with a key. -/
def skipBetween : (fuel : Nat) → Layout → Layout
  | 0, s => s
  | fuel + 1, s =>
    let c := s.cursor.skipSpaces.skipComment
    match c.lineBreak? with
    | none => { s with cursor := c }
    | some (_, c) =>
      skipBetween fuel { s with cursor := c, keyAllowed := s.keyAllowed || !s.inFlow }

/-- A token of a single mark. -/
def mark (s : Layout) (t : Token) (keyAllowed : Bool) (length : Nat := 1) : Layout :=
  { s.push t with cursor := s.cursor.skip length, keyAllowed }

/-- What ends every block collection: a directive or a mark of the document. -/
def closeAll? (s : Layout) : Option Layout := (s.unwind (-1)).dropKey?

def openFlow? (s : Layout) (t : Token) : Option Layout := do
  let s ← s.noteKey?
  return { s.mark t true with depth := s.depth + 1 }

def closeFlow? (s : Layout) (t : Token) : Option Layout := do
  let s ← s.dropKey?
  if s.inFlow then some { s.mark t false with depth := s.depth - 1 } else none

/-- A dash or question mark: in block context it opens its collection. -/
def openEntry? (s : Layout) (collection t : Token) (keyAllowed : Bool) : Option Layout := do
  if !s.inFlow && !s.keyAllowed then none
  let s ← (s.openBlock s.column s.tokens.length collection).dropKey?
  return s.mark t keyAllowed

/-- A colon: what stands before it becomes a key if it may be one. -/
def value? (s : Layout) : Option Layout :=
  match s.keys.lookup s.depth with
  | some key =>
    let s := { s with keys := s.keys.filter fun (d, _) => d ≠ s.depth }
    let s := (s.insertAt key.place .key).openBlock key.column key.place .blockMapping
    some (s.mark .value false)
  | none => s.openEntry? .blockMapping .value (!s.inFlow)

/-- A token that may be a key, with the reader of it. -/
def content? (s : Layout) (read : Cursor → Option (Token × Cursor)) : Option Layout := do
  let s ← s.noteKey?
  let (t, cursor) ← read s.cursor
  return { s.push t with cursor, keyAllowed := false }

def plain? (s : Layout) : Option Layout := do
  let s ← s.noteKey?
  let (text, cursor, broken) := plain s.inFlow (s.indent + 1) s.cursor
  return { s.push (.scalar (String.ofList text) true) with cursor, keyAllowed := broken }

def blockScalar? (s : Layout) : Option Layout := do
  let s ← s.dropKey?
  let (text, cursor) ← block? s.indent s.cursor
  return { s.push (.scalar (String.ofList text) false) with cursor, keyAllowed := true }

/-- Marks that start no plain scalar. -/
def indicators : List Char := "-?:,[]\x7b\x7d#&*!|>'\"%@\x60".toList

/-- Whether a plain scalar starts here. -/
def startsPlain (s : Layout) (ch : Char) : Bool :=
  !(isBlankOrBreak ch || indicators.contains ch)
    || (!endsOr isBlankOrBreak (s.cursor.peekAt 1)
        && (ch == '-' || (!s.inFlow && (ch == '?' || ch == ':'))))

/-- Reads the token that starts with a given character. -/
def token? (s : Layout) (ch : Char) : Option Layout :=
  let c := s.cursor
  let apart := endsOr isBlankOrBreak (c.peekAt 1)
  if ch = '%' ∧ c.column = 0 then do
    let s ← s.closeAll?
    let (t, cursor) ← directive? s.cursor
    return { s.push t with cursor, keyAllowed := false }
  else if c.column = 0 ∧ c.isMarker '-' then s.closeAll?.map (·.mark .documentStart false 3)
  else if c.column = 0 ∧ c.isMarker '.' then s.closeAll?.map (·.mark .documentEnd false 3)
  else if ch = '[' then s.openFlow? .flowSequence
  else if ch = '{' then s.openFlow? .flowMapping
  else if ch = ']' then s.closeFlow? .flowSequenceEnd
  else if ch = '}' then s.closeFlow? .flowMappingEnd
  else if ch = ',' then s.dropKey?.map (·.mark .separator true)
  else if ch = '-' ∧ apart then s.openEntry? .blockSequence .entry true
  else if ch = '?' ∧ (s.inFlow ∨ apart) then s.openEntry? .blockMapping .key (!s.inFlow)
  else if ch = ':' ∧ (s.inFlow ∨ apart) then s.value?
  else if ch = '*' then
    s.content? fun c => (anchorName? c).map fun (name, c) => (.reference name, c)
  else if ch = '&' then
    s.content? fun c => (anchorName? c).map fun (name, c) => (.anchor name, c)
  else if ch = '!' then s.content? tag?
  else if (ch = '|' ∨ ch = '>') ∧ !s.inFlow then s.blockScalar?
  else if ch = '\'' ∨ ch = '"' then
    s.content? fun c => (quoted? c).map fun (text, c) => (.scalar (String.ofList text) false, c)
  else if s.startsPlain ch then s.plain?
  else none

/-- Reads to the end of the text. -/
def run? : (fuel : Nat) → Layout → Option Layout
  | 0, _ => none
  | fuel + 1, s => do
    let s ← (skipBetween (s.cursor.rest.length + 1) s).dropStale?
    let s := s.unwind s.column
    match s.cursor.peek with
    | none => s.closeAll?
    | some ch => run? fuel (← s.token? ch)

end Layout

/-- The tokens of a text. -/
def tokens? (text : List Char) : Option (List Token) :=
  if text.all isAllowed then
    let start : Cursor := ⟨text, 0, 0, 0⟩
    let start := if start.peek = some '\ufeff' then start.next else start
    (Layout.run? (text.length + 2) { cursor := start }).map fun s => s.tokens.reverse
  else none

end DoxPages.Yaml
