import DoxPages.Markup.Xml.Chars
import DoxPages.Text.Numeral

/-!
# Tokens of an XML document

A document is tags, runs of text, and asides: comments, processing instructions
and the document type. Text keeps its references until it is known where it
stands; the text of a character data section has none.
-/

namespace DoxPages.Xml

open Text

inductive Token where
  | opening (name : QName) (attrs : List (QName × List Char)) (closed : Bool)
  | closing (name : QName)
  | text (raw : List Char)
  | literal (cs : List Char)
  | aside
  | doctype
  deriving Repr, Inhabited

/-! ## References -/

/-- The allowed character with a number written in a base up to sixteen. -/
def codePoint? (base : Nat) (ds : List Char) : Option Char := do
  let n ← inBase? base ds
  if n < 0x110000 ∧ ¬(0xD800 ≤ n ∧ n < 0xE000) ∧ isAllowed (Char.ofNat n) then
    some (Char.ofNat n)
  else none

/-- The character a reference stands for, by what is between `&` and `;`. -/
def referenced? : List Char → Option Char
  | '#' :: 'x' :: ds => codePoint? 16 ds
  | '#' :: ds => codePoint? 10 ds
  | name =>
    [("lt", '<'), ("gt", '>'), ("amp", '&'), ("quot", '"'), ("apos", '\'')].lookup
      (String.ofList name)

/-- The text with its references replaced; `reading` holds the name of an open one, backwards. -/
def resolve? (reading : Option (List Char)) : List Char → Option (List Char)
  | [] => if reading.isNone then some [] else none
  | c :: cs =>
    match reading with
    | none => if c = '&' then resolve? (some []) cs else (resolve? none cs).map (c :: ·)
    | some name =>
      if c = ';' then do
        let d ← referenced? name.reverse
        return d :: (← resolve? none cs)
      else resolve? (some (c :: name)) cs

/-- Running text between tags. -/
def runningText? (raw : List Char) : Option (List Char) :=
  if hasInfix [']', ']', '>'] raw then none else resolve? none raw

/-- The value of an attribute; white space that is not a reference reads as spaces. -/
def attributeValue? (raw : List Char) : Option (List Char) :=
  if raw.contains '<' then none
  else resolve? none (raw.map fun c => if isSpace c then ' ' else c)

/-! ## Single tokens -/

/-- A quoted text and the rest. -/
def quotedText? : List Char → Option (List Char × List Char)
  | q :: cs => if q = '"' ∨ q = '\'' then cutAt? [q] cs else none
  | [] => none

/-- The attributes of a tag, each behind white space, and the rest of the tag. -/
def attributes? : (fuel : Nat) → List Char → Option (List (QName × List Char) × List Char)
  | 0, _ => none
  | fuel + 1, cs =>
    let rest := skipSpace cs
    match rest with
    | '>' :: _ | '/' :: _ => some ([], rest)
    | _ => do
      if rest.length = cs.length then none
      let (name, rest) ← name? rest
      let rest ← after? ['='] (skipSpace rest)
      let (raw, rest) ← quotedText? (skipSpace rest)
      let value ← attributeValue? raw
      let (attrs, rest) ← attributes? fuel rest
      return ((name, value) :: attrs, rest)

/-- What follows `<` in an opening tag. -/
def opening? (cs : List Char) : Option (Token × List Char) := do
  let (name, rest) ← name? cs
  let (attrs, rest) ← attributes? (rest.length + 1) rest
  match rest with
  | '>' :: rest => some (.opening name attrs false, rest)
  | '/' :: '>' :: rest => some (.opening name attrs true, rest)
  | _ => none

/-- What follows `</` in a closing tag. -/
def closing? (cs : List Char) : Option (Token × List Char) := do
  let (name, rest) ← name? cs
  let rest ← after? ['>'] (skipSpace rest)
  return (.closing name, rest)

/-- What follows `<!--`. -/
def comment? (cs : List Char) : Option (Token × List Char) := do
  let (_, rest) ← cutAt? ['-', '-'] cs
  let rest ← after? ['>'] rest
  return (.aside, rest)

/-- What follows `<?`. The name `xml` is reserved in every spelling. -/
def instruction? (cs : List Char) : Option (Token × List Char) := do
  let (target, rest) ← bareName? cs
  if target.map Char.toLower = ['x', 'm', 'l'] then none
  if rest.head?.any isSpace || ['?', '>'].isPrefixOf rest then
    let (_, rest) ← cutAt? ['?', '>'] rest
    return (.aside, rest)
  else none

/-! ## The document type -/

/-- The rest behind the `>` of a declaration, passing over quoted texts. -/
def behindDeclaration? (quote : Option Char) : List Char → Option (List Char)
  | [] => none
  | c :: cs =>
    match quote with
    | some q => behindDeclaration? (if c = q then none else quote) cs
    | none =>
      if c = '>' then some cs
      else behindDeclaration? (if c = '"' ∨ c = '\'' then some c else none) cs

/-- The rest behind the `]` of an internal subset without entities. -/
def behindSubset? : (fuel : Nat) → List Char → Option (List Char)
  | 0, _ => none
  | fuel + 1, cs =>
    match skipSpace cs with
    | ']' :: rest => some rest
    | '<' :: '!' :: '-' :: '-' :: rest => do
      let (_, rest) ← comment? rest
      behindSubset? fuel rest
    | '<' :: '?' :: rest => do
      let (_, rest) ← instruction? rest
      behindSubset? fuel rest
    | '<' :: '!' :: rest =>
      if ["ELEMENT", "ATTLIST", "NOTATION"].any fun w => w.toList.isPrefixOf rest then do
        behindSubset? fuel (← behindDeclaration? none rest)
      else none
    | _ => none

/-- The rest behind the identifier of an external subset, if there is one. -/
def behindExternalId? (cs : List Char) : Option (List Char) :=
  match after? "SYSTEM".toList cs, after? "PUBLIC".toList cs with
  | some rest, _ => do
    if ¬rest.head?.any isSpace then none
    let (_, rest) ← quotedText? (skipSpace rest)
    return rest
  | none, some rest => do
    if ¬rest.head?.any isSpace then none
    let (_, rest) ← quotedText? (skipSpace rest)
    if ¬rest.head?.any isSpace then none
    let (_, rest) ← quotedText? (skipSpace rest)
    return rest
  | none, none => some cs

/-- What follows `<!DOCTYPE`. -/
def doctype? (cs : List Char) : Option (Token × List Char) := do
  let (_, rest) ← name? (skipSpace cs)
  let rest := skipSpace (← behindExternalId? (skipSpace rest))
  let rest ← match rest with
    | '[' :: rest => behindSubset? (rest.length + 1) rest
    | _ => some rest
  let rest ← after? ['>'] (skipSpace rest)
  return (.doctype, rest)

/-! ## The whole document -/

/-- The token that a text starts with. -/
def token? (cs : List Char) : Option (Token × List Char) :=
  match cs with
  | '<' :: '/' :: rest => closing? rest
  | '<' :: '?' :: rest => instruction? rest
  | '<' :: '!' :: rest =>
    match after? ['-', '-'] rest, after? "[CDATA[".toList rest, after? "DOCTYPE".toList rest with
    | some rest, _, _ => comment? rest
    | _, some rest, _ => (cutAt? [']', ']', '>'] rest).map fun (cs, rest) => (.literal cs, rest)
    | _, _, some rest => doctype? rest
    | none, none, none => none
  | '<' :: rest => opening? rest
  | cs => some (.text (cs.takeWhile (· ≠ '<')), cs.dropWhile (· ≠ '<'))

def tokens? : (fuel : Nat) → List Char → Option (List Token)
  | _, [] => some []
  | 0, _ => none
  | fuel + 1, cs => do
    let (token, rest) ← token? cs
    return token :: (← tokens? fuel rest)

/-! ## The declaration in front -/

/-- A version number `1.` and digits. -/
def isVersion : List Char → Bool
  | '1' :: '.' :: ds => ds ≠ [] && ds.all Char.isDigit
  | _ => false

def isEncodingName : List Char → Bool
  | [] => false
  | c :: cs => c.isAlpha && cs.all fun c => c.isAlphanum || c == '.' || c == '_' || c == '-'

/-- A pseudo attribute of the given name behind white space, if it is there. -/
def pseudo? (name : String) (cs : List Char) : Option (Option (List Char) × List Char) :=
  match after? name.toList (skipSpace cs) with
  | none => some (none, cs)
  | some rest => do
    if ¬cs.head?.any isSpace then none
    let rest ← after? ['='] (skipSpace rest)
    let (value, rest) ← quotedText? (skipSpace rest)
    return (some value, rest)

/-- The rest behind the XML declaration, the whole text if there is none. -/
def behindDeclaration (cs : List Char) : Option (List Char) :=
  match after? "<?xml".toList cs with
  | some (c :: rest) =>
    if isSpace c then do
      let (version, rest) ← pseudo? "version" (c :: rest)
      let (encoding, rest) ← pseudo? "encoding" rest
      let (standalone, rest) ← pseudo? "standalone" rest
      if !version.any isVersion || !encoding.all isEncodingName then none
      if !standalone.all fun v => v = "yes".toList || v = "no".toList then none
      after? ['?', '>'] (skipSpace rest)
    else some cs
  | _ => some cs

end DoxPages.Xml
