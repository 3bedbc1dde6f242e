import DoxPages.Description.Output
import DoxPages.Description.Rule
import DoxPages.Links.Linker
import DoxPages.Log.Reported
import DoxPages.Markup.Node
import DoxPages.Text.Numeral

/-!
# Rendering descriptions as Markdown

A node is rendered in a context: the innermost list or section around it, the
indentation of list continuation lines, whether it stands in code, and what
links may point to. `Rule.render` gives the rendering of one element from that
of its content; `Node.render` ties the two together along the tree.

A rendering breaks off where a heading asks for more marks than the machine can count. Memory and
the depth of the tree have no limit here: a level that can be counted is written out.
-/

namespace DoxPages

open Text

/-- What references and type names can be linked to. -/
structure Resolver where
  linker : Linker := {}
  /-- The page of a compound. -/
  compound? : String → Option String := fun _ => none
  /-- The page of a member's compound, and the anchor on it. -/
  member? : String → Option (String × String) := fun _ => none

/-- The innermost list or section around a node. -/
inductive Frame where
  | page
  | list (numbered : Bool)
  | subsection (level : Nat)
  deriving DecidableEq, Repr

structure Context where
  resolver : Option Resolver := none
  frame : Frame := .page
  indent : Nat := 0
  inCode : Bool := false

namespace Context

/-- The resolver, unless links are not allowed here. -/
def activeResolver (cx : Context) : Option Resolver := if cx.inCode then none else cx.resolver

/-- The context of content that is rendered on its own. -/
def apart (cx : Context) : Context := { cx with frame := .page, indent := 0 }

end Context

def spaces (n : Nat) : String := String.ofList (List.replicate n ' ')

def hashes (n : Nat) : String := String.ofList (List.replicate n '#')

/-- Whether a text can be asked for so many times: the machine counts in 64 bits, with a sign. -/
def isCount (n : Int) : Bool := -0x8000000000000000 ≤ n && n < 0x8000000000000000

/-! ## Text -/

namespace Node

/-- Text counts among its siblings unless it is blank and holds no space. -/
def isVisible : Node → Bool
  | text s => !(allBlank s.toList) || s.toList.contains ' '
  | element .. => true

/-- The fragment a run of text makes. -/
def textFragment (cx : Context) (s : String) : String :=
  if allBlank s.toList then
    if s.toList.contains ' ' then " " else ""
  else match cx.activeResolver with
    | some r => onChars r.linker.apply s
    | none => s

end Node

/-! ## Table rows -/

/-- The row without the separator behind its last cell. -/
def trimRow (cs : List Char) : List Char :=
  let row := stripRight cs
  match row.reverse with
  | '|' :: '\\' :: _ => row
  | '|' :: rest => stripRight rest.reverse
  | _ => row

/-- The text of a cell on one line, without separators of its own. -/
def escapeCell (cs : List Char) : List Char :=
  replaceChar '\n' "<br/>".toList (replaceChar '|' ['\\', '|'] (trim (· == '\n') cs))

/-! ## One element from its content -/

namespace Rule

/-- Renders content in a context, at the end of an output. -/
abbrev Content := Context → Output → Output

/-- The content as a text of its own, without blanks at its ends. -/
def apart (content : Content) (cx : Context) (out : Output) : String × Output :=
  let inner := content cx.apart { out with fragments := [] }
  (onChars strip inner.text, { inner with fragments := out.fragments })

/-- The language of a listing by its file name; C++ if it names none. -/
def listingLanguage (filename : String) : String :=
  match (Path.ofString filename).extension with
  | "" => "cpp"
  | ext => ext

def headingLevel (level : String) : Int := (int? level.toList).getD 0

/-- What stands in front of a heading; nothing if its level is no count. -/
def headingMarks (level : Int) : String := if isCount level then hashes level.toNat else ""

def formulaText (source : String) : String :=
  let cs := strip source.toList
  if cs.head? = some '$' ∧ cs.getLast? = some '$' then String.ofList cs
  else
    let body :=
      if "\\[".toList.isPrefixOf cs ∧ "\\]".toList.isSuffixOf cs then
        strip ((cs.drop 2).dropLast.dropLast)
      else cs
    "\n$$\n" ++ String.ofList body ++ "\n$$\n"

def rowDashes (cells : List Node) : String :=
  match cells with
  | [] => ""
  | first :: _ =>
    if first.attr "thead" = "yes" then
      "\n" ++ joinWith " | " (cells.map fun _ => "---------")
    else ""

/-- The target a reference of a known kind resolves to. -/
def referenceTarget? (r : Resolver) (kind target : String) : Option String :=
  if kind = "compound" then r.compound? target
  else (r.member? target).map fun m => m.1 ++ m.2

/-- A reference becomes a link if it resolves, else code; every failure is reported. -/
def renderReference (el : Node) (content : Content) (cx : Context) (out : Output) : Output :=
  let (label, out) := apart content {} out
  match cx.activeResolver with
  | none => out.write label
  | some r =>
    let target := el.attr "refid"
    let kind := el.attr "kindref"
    if kind = "compound" ∨ kind = "member" then
      match referenceTarget? r kind target with
      | some page => out.write (codeLink label page)
      | none =>
        (out.report (.unresolvedReference kind target label)).write ("`" ++ label ++ "`")
    else (out.report (.unknownReferenceKind kind label)).write ("`" ++ label ++ "`")

/-- Renders an element; `index` is its position among its visible siblings. -/
def render (rule : Rule) (el : Node) (content : Content) (cx : Context) (index : Nat)
    (out : Output) : Output :=
  match rule with
  | literal text => out.write text
  | wrap before after => (content cx (out.write before)).write after
  | code before after => (content { cx with inCode := true } (out.write before)).write after
  | nothing => out
  | para =>
    content cx (if index = 0 then out else (out.write "\n\n").write (spaces cx.indent))
  | list numbered =>
    content { cx with frame := .list numbered } (if index = 0 then out else out.write "\n")
  | item =>
    let bullet := if cx.frame = .list true then "1. " else "* "
    let out := if index = 0 then out else out.write "\n"
    content { cx with indent := cx.indent + bullet.length }
      ((out.write (spaces cx.indent)).write bullet)
  | parameters =>
    let title := parametersTitle (el.attr "kind")
    (content cx (out.write s!"\n### {title}\n")).write "\n\n"
  | listing =>
    let language := listingLanguage (el.attr "filename")
    (content { cx with inCode := true } (out.write s!"\n```{language}\n")).write "```\n"
  | verbatim =>
    ((out.write "\n```\n").write (onChars (trim (· == '\n')) el.textContent)).write "\n```\n"
  | note =>
    let kind := el.attr "kind"
    match noteOpening? kind with
    | some opening => content cx (out.write opening)
    | none => content cx (out.report (.unsupportedNote kind))
  | formula => out.write (formulaText el.textContent)
  | subsection level =>
    content { cx with frame := .subsection level } (if index = 0 then out else out.write "\n\n")
  | title =>
    let level := match cx.frame with
      | .subsection level => level
      | _ => 0
    ((out.write (hashes level)).write " ").write el.strippedText
  | heading =>
    let level := headingLevel (el.attr "level" "0")
    content cx
      (((out.dropSpace.stopUnless (isCount level)).write (headingMarks level)).write " ")
  | link =>
    let (label, out) := apart content cx out
    if cx.inCode then out.write label
    else ((((out.write "[").write label).write "](").write (el.attr "url")).write ")"
  | reference => renderReference el content cx out
  | row =>
    let (text, out) := apart content cx out
    ((out.write "\n").write (onChars trimRow text)).write (rowDashes (el.elements "entry"))
  | cell =>
    let (text, out) := apart content cx out
    (out.write (onChars escapeCell text)).write "|"

end Rule

/-! ## Along the tree -/

mutual

def Node.render (cx : Context) (index : Nat) : Node → Output → Output
  | .text s, out => out.write (Node.textFragment cx s)
  | .element tag attrs children, out =>
    match Rule.ofTag? tag with
    | some rule =>
      rule.render (.element tag attrs children) (fun cx out => renderAll cx 0 children out)
        cx index out
    | none => renderAll cx 0 children (out.report (.unsupportedElement tag))

/-- Renders siblings; `index` counts the visible ones. -/
def renderAll (cx : Context) (index : Nat) : List Node → Output → Output
  | [], out => out
  | n :: ns, out =>
    if n.isVisible then renderAll cx (index + 1) ns (n.render cx index out)
    else renderAll cx index ns out

end

theorem Node.render_para (attrs : List (String × String)) (children : List Node) (cx : Context)
    (index : Nat) (out : Output) :
    (element "para" attrs children).render cx index out =
      renderAll cx 0 children
        (if index = 0 then out else (out.write "\n\n").write (spaces cx.indent)) := by
  have hrule : Rule.ofTag? "para" = some .para := by decide
  rw [render, hrule]
  rfl

theorem renderAll_cons_of_visible {n : Node} (h : n.isVisible = true) (ns : List Node)
    (cx : Context) (index : Nat) (out : Output) :
    renderAll cx index (n :: ns) out = renderAll cx (index + 1) ns (n.render cx index out) := by
  rw [renderAll, if_pos h]

theorem renderAll_append (cx : Context) (ms ns : List Node) (index : Nat) (out : Output) :
    renderAll cx index (ms ++ ns) out =
      renderAll cx (index + ms.countP Node.isVisible) ns (renderAll cx index ms out) := by
  induction ms generalizing index out with
  | nil => rw [renderAll, List.nil_append, List.countP_nil, Nat.add_zero]
  | cons m ms ih =>
    rw [List.cons_append, renderAll, renderAll, List.countP_cons]
    split
    · rw [ih, Nat.add_right_comm, Nat.add_assoc]
    · exact ih ..

/-! ## Whole descriptions -/

inductive Description where
  | node (n : Node)
  | nodes (ns : List Node)
  deriving Repr, Inhabited

namespace Description

def empty : Description := nodes []

def render (cx : Context) : Description → Output → Output
  | node n, out => n.render cx 0 out
  | nodes ns, out => renderAll cx 0 ns out

/-- The Markdown of a description without blanks at its ends. -/
def toMarkdown (resolver : Option Resolver) (d : Description) : Reported String :=
  let out := d.render { resolver } {}
  { value := onChars strip out.text
    log := out.events.reverse
    stopped := out.stopped.map List.reverse }

end Description

/-- The Markdown of a node without blanks at its ends. -/
def Node.toMarkdown (resolver : Option Resolver) (n : Node) : Reported String :=
  (Description.node n).toMarkdown resolver

end DoxPages
