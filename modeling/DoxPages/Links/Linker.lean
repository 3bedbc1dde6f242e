import DoxPages.Links.Table
import DoxPages.Links.TemplateArgs
import DoxPages.Text.Blank
import DoxPages.Text.Scan
import DoxPages.Text.Word

/-!
# Linking type names in running text

Three scans, one inside the gaps of another. Existing links and code spans are
taken out first. In what is left, names of the C++ standard library are found,
with the template arguments and the member that follow them. In what is left of
that, identifiers are looked up in the table of generated types. A find is
written as links and code spans that show exactly the characters it took.
-/

namespace DoxPages

open Text

/-- A code span that is a link. -/
def codeLink (label target : String) : String := "[`" ++ label ++ "`](" ++ target ++ ")"

/-! ## Text that stays as it is -/

/-- The length of the Markdown link or code span that a text starts with. -/
def protectedLength? : List Char → Option Nat
  | '[' :: cs =>
    let label := cs.takeWhile fun c => c ≠ ']' && c ≠ '\n'
    match cs.drop label.length with
    | ']' :: '(' :: ds =>
      let target := ds.takeWhile fun c => c ≠ ')' && !isBlank c
      if (ds.drop target.length).head? = some ')' then some (label.length + target.length + 4)
      else none
    | _ => none
  | '`' :: cs =>
    let code := cs.takeWhile fun c => c ≠ '`' && c ≠ '\n'
    if (cs.drop code.length).head? = some '`' then some (code.length + 2) else none
  | _ => none

def findProtected : Finder (List Char) := fun _ cs =>
  (protectedLength? cs).map fun n => (cs.take n, n)

/-! ## Names of the standard library -/

/-- The member named behind a type. -/
inductive Suffix where
  | subscript
  | call (member : List Char)
  deriving DecidableEq, Repr

namespace Suffix

def text : Suffix → List Char
  | subscript => "::operator[]".toList
  | call member => ':' :: ':' :: member ++ ['(', ')']

theorem text_subscript : subscript.text = [':', ':'] ++ "operator[]".toList := by decide

theorem text_call (member : List Char) :
    (call member).text = ':' :: ':' :: member ++ ['(', ')'] := rfl

/-- The member suffix that a text starts with. -/
def ofChars? : List Char → Option Suffix
  | ':' :: ':' :: cs =>
    if "operator[]".toList.isPrefixOf cs then some subscript
    else
      let (member, rest) := spanWord cs
      match member, rest with
      | _ :: _, '(' :: ')' :: _ => some (call member)
      | _, _ => none
  | _ => none

/-- The page of a member below the page of its type. -/
def url (table : LinkTable) (typeUrl : String) : Suffix → String
  | call member => typeUrl ++ "/" ++ String.ofList member
  | subscript =>
    match table.operators.lookup "operator[]" with
    | some page => if page = "" then typeUrl else typeUrl ++ "/" ++ page
    | none => typeUrl

end Suffix

/-- A name of the standard library with what belongs to it. -/
structure StdName where
  name : List Char
  args : List Char
  suffix : Option Suffix
  deriving DecidableEq, Repr

namespace StdName

def suffixText (s : StdName) : List Char := (s.suffix.map Suffix.text).getD []

def text (s : StdName) : List Char := s.name ++ s.args ++ s.suffixText

/-- The `std::` name that a text starts with. -/
def name? (prev : Option Char) (cs : List Char) : Option (List Char) :=
  if prev.any fun c => isWord c || c == ':' then none
  else if "std::".toList.isPrefixOf cs then
    match (cs.drop 5).takeWhile isWord with
    | [] => none
    | w => some ("std::".toList ++ w)
  else none

def find (table : LinkTable) : Finder (StdName × String) := fun prev cs => do
  let name ← name? prev cs
  let url ← table.url? (String.ofList name)
  let behind := cs.drop name.length
  let args := behind.take ((TemplateArgs.length? behind).getD 0)
  let found := ⟨name, args, Suffix.ofChars? (behind.drop args.length)⟩
  return ((found, url), found.text.length)

/-- Template arguments are code without a link; a member has a link of its own then. -/
def link (table : LinkTable) (s : StdName) (url : String) : String :=
  let memberUrl := (s.suffix.map (Suffix.url table url)).getD url
  if s.args = [] then codeLink (String.ofList s.text) memberUrl
  else
    codeLink (String.ofList s.name) url ++ "`" ++ String.ofList s.args ++ "`" ++
      if s.suffix.isSome then codeLink (String.ofList s.suffixText) memberUrl else ""

end StdName

/-! ## Names of generated types -/

/-- The qualified member behind an identifier, with its parentheses. -/
def memberBehind : List Char → List Char
  | ':' :: ':' :: cs =>
    let (member, rest) := spanWord cs
    match member, rest with
    | [], _ => []
    | _, '(' :: ')' :: _ => ':' :: ':' :: member ++ ['(', ')']
    | _, _ => ':' :: ':' :: member
  | _ => []

/-- An identifier with the member behind it, and its address if it is linked. -/
structure IdlName where
  text : List Char
  url : Option String
  deriving DecidableEq, Repr

namespace IdlName

def find (table : LinkTable) : Finder IdlName := fun prev cs =>
  if prev.any isWord then none
  else
    match spanWord cs with
    | ([], _) => none
    | (name, behind) =>
      let text := name ++ memberBehind behind
      some (⟨text, table.url? (String.ofList name)⟩, text.length)

def link (n : IdlName) : List Char :=
  match n.url with
  | some url => (codeLink (String.ofList n.text) url).toList
  | none => n.text

end IdlName

/-! ## The linker -/

structure Linker where
  std : LinkTable := {}
  idl : LinkTable := {}
  deriving DecidableEq, Repr, Inhabited

namespace Linker

def linkIdl (l : Linker) (cs : List Char) : List Char :=
  (split (IdlName.find l.idl) none cs).write id IdlName.link

def linkPlain (l : Linker) (cs : List Char) : List Char :=
  (split (StdName.find l.std) none cs).write l.linkIdl fun s => (s.1.link l.std s.2).toList

/-- The text with every recognized type name turned into a link. -/
def apply (l : Linker) (cs : List Char) : List Char :=
  (split findProtected none cs).write l.linkPlain id

end Linker

end DoxPages
