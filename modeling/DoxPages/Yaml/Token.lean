import DoxPages.Yaml.Scalar

/-!
# YAML tokens

Tokens, and the readers of those that are more than a single mark: names of
anchors, tags, and directives.
-/

namespace DoxPages.Yaml

inductive Directive where
  | version (major : Nat)
  | handle (name uri : String)
  | other
  deriving DecidableEq, Repr

inductive Token where
  | directive (d : Directive)
  | documentStart
  | documentEnd
  | blockSequence
  | blockMapping
  | blockEnd
  | flowSequence
  | flowSequenceEnd
  | flowMapping
  | flowMappingEnd
  /-- The dash of a block sequence. -/
  | entry
  /-- The comma of a flow collection. -/
  | separator
  | key
  | value
  | reference (name : String)
  | anchor (name : String)
  | tag (handle : Option String) (suffix : String)
  | scalar (text : String) (plain : Bool)
  deriving DecidableEq, Repr

def isNameChar (c : Char) : Bool := c.isAlphanum || c == '-' || c == '_'

def isSpaceOrBreak (c : Char) : Bool := c == ' ' || isBreak c

/-- A name of at least one character. -/
def name? (c : Cursor) : Option (String × Cursor) :=
  let (run, c) := c.span isNameChar
  if run = [] then none else some (String.ofList run, c)

/-! ## Anchors -/

def endsAnchor (c : Char) : Bool := isBlankOrBreak c || "?:,]\x7d%@\x60".toList.contains c

/-- The name behind the mark of an anchor or an alias. -/
def anchorName? (c : Cursor) : Option (String × Cursor) := do
  let (name, c) ← name? c.next
  if endsOr endsAnchor c.peek then some (name, c) else none

/-! ## Tags -/

def isUriChar (c : Char) : Bool := c.isAlphanum || "-;/?:@&=+$,_.!~*'()[]".toList.contains c

/-- Bytes written as percent signs with two digits each. -/
def uriEscapes? : List Char → Option (List UInt8 × List Char)
  | '%' :: a :: b :: rest => do
    let byte ← Text.inBase? 16 [a, b]
    let (bytes, rest) ← uriEscapes? rest
    some (UInt8.ofNat byte :: bytes, rest)
  | '%' :: _ => none
  | rest => some ([], rest)

def decodeBytes? (bytes : List UInt8) : Option (List Char) :=
  (String.fromUTF8? ⟨bytes.toArray⟩).map String.toList

/-- The characters of an address, and how many characters they take here. -/
def uriFrom? : (fuel : Nat) → List Char → Option (List Char × Nat)
  | 0, _ => some ([], 0)
  | fuel + 1, cs =>
    match cs with
    | [] => some ([], 0)
    | c :: rest =>
      if c = '%' then do
        let (bytes, behind) ← uriEscapes? cs
        let image ← decodeBytes? bytes
        let (more, n) ← uriFrom? fuel behind
        some (image ++ more, 3 * bytes.length + n)
      else if isUriChar c then (uriFrom? fuel rest).map fun (more, n) => (c :: more, n + 1)
      else some ([], 0)

def uri? (c : Cursor) : Option (String × Cursor) := do
  let (image, n) ← uriFrom? (c.rest.length + 1) c.rest
  if n = 0 then none else some (String.ofList image, c.skip n)

/-- A handle: `!`, `!!`, or a name between two marks. -/
def tagHandle? (c : Cursor) : Option (String × Cursor) :=
  if c.peek ≠ some '!' then none
  else if c.peekAt 1 = some ' ' then some ("!", c.next)
  else
    let (run, c) := c.next.span isNameChar
    if c.peek = some '!' then some (String.ofList ('!' :: run ++ ['!']), c.next) else none

/-- A tag; the cursor stands at its mark. -/
def tag? (c : Cursor) : Option (Token × Cursor) := do
  let (tag, c) ←
    if c.peekAt 1 = some '<' then do
      let (uri, c) ← uri? (c.skip 2)
      if c.peek = some '>' then some (Token.tag none uri, c.next) else none
    else if endsOr isBlankOrBreak (c.peekAt 1) then some (Token.tag none "!", c.next)
    else do
      let word := c.next.rest.takeWhile fun ch => !isSpaceOrBreak ch
      let (handle, c) ← if word.contains '!' then tagHandle? c else some ("!", c.next)
      let (uri, c) ← uri? c
      some (Token.tag (some handle) uri, c)
  if endsOr isSpaceOrBreak c.peek then some (tag, c) else none

/-! ## Directives -/

def number? (c : Cursor) : Option (Nat × Cursor) :=
  let (run, c) := c.span Char.isDigit
  if run = [] then none
  else some (run.foldl (fun n d => 10 * n + (d.toNat - '0'.toNat)) 0, c)

def version? (c : Cursor) : Option (Directive × Cursor) := do
  let (major, c) ← number? c.skipSpaces
  if c.peek ≠ some '.' then none
  let (_, c) ← number? c.next
  if endsOr isSpaceOrBreak c.peek then some (.version major, c) else none

def handle? (c : Cursor) : Option (Directive × Cursor) := do
  let (name, c) ← tagHandle? c.skipSpaces
  if c.peek ≠ some ' ' then none
  let (uri, c) ← uri? c.skipSpaces
  if endsOr isSpaceOrBreak c.peek then some (.handle name uri, c) else none

/-- A directive with the rest of its line; the cursor stands at its mark. -/
def directive? (c : Cursor) : Option (Token × Cursor) := do
  let (name, c) ← name? c.next
  if !endsOr isSpaceOrBreak c.peek then none
  let (d, c) ←
    if name = "YAML" then version? c
    else if name = "TAG" then handle? c
    else some (.other, (c.span fun ch => !isBreak ch).2)
  return (.directive d, ← c.skipLine?)

end DoxPages.Yaml
