import DoxPages.Description.Render

/-!
# Rendering on sheets

A renderer that keeps its place while it goes along the tree. The lists and sections around a
node, the indentation and whether it stands in code are on a sheet with the output: they are
changed on the way into an element and changed back on the way out. Content that is rendered on
its own is written on a new sheet on top of the others. `Node.run_eq_render` says that this is
the rendering that hands a context down instead.
-/

namespace DoxPages

open Text

structure Sheet where
  resolver : Option Resolver := none
  /-- The lists and sections around, the innermost first. -/
  frames : List Frame := []
  indent : Nat := 0
  inCode : Bool := false
  /-- What has been written, newest first. -/
  fragments : List String := []

/-- The sheet that is written on, and those that wait for what is written there. -/
structure Pile where
  top : Sheet := {}
  below : List Sheet := []
  log : Log := []
  /-- The log when the program breaks off, if it does. -/
  stopped : Option Log := none

namespace Pile

def context (m : Pile) : Context where
  resolver := m.top.resolver
  frame := m.top.frames.head?.getD .page
  indent := m.top.indent
  inCode := m.top.inCode

def output (m : Pile) : Output := ⟨m.top.fragments, m.log, m.stopped⟩

def on (m : Pile) (f : Output → Output) : Pile where
  top := { m.top with fragments := (f m.output).fragments }
  below := m.below
  log := (f m.output).events
  stopped := (f m.output).stopped

def write (s : String) (m : Pile) : Pile := m.on (Output.write s)

def report (e : Event) (m : Pile) : Pile := m.on (Output.report e)

def within (frame : Frame) (act : Pile → Pile) (m : Pile) : Pile :=
  let m := act { m with top := { m.top with frames := frame :: m.top.frames } }
  { m with top := { m.top with frames := m.top.frames.tail } }

def indented (n : Nat) (act : Pile → Pile) (m : Pile) : Pile :=
  let m := act { m with top := { m.top with indent := m.top.indent + n } }
  { m with top := { m.top with indent := m.top.indent - n } }

def coded (act : Pile → Pile) (m : Pile) : Pile :=
  let after := act { m with top := { m.top with inCode := true } }
  { after with top := { after.top with inCode := m.top.inCode } }

def opened (resolver : Option Resolver) (inCode : Bool) (m : Pile) : Pile where
  top := { resolver, inCode }
  below := m.top :: m.below
  log := m.log
  stopped := m.stopped

def closed (m : Pile) : Pile :=
  match m.below with
  | [] => m
  | sheet :: sheets => { m with top := sheet, below := sheets }

/-- What is written on a sheet of its own, without blanks at its ends. -/
def aside (resolver : Option Resolver) (inCode : Bool) (act : Pile → Pile) (m : Pile) :
    String × Pile :=
  let m := act (m.opened resolver inCode)
  (onChars strip m.output.text, m.closed)

end Pile

/-! ## Elements -/

namespace Rule

/-- The frame whose content is on the top sheet decides how an item opens. -/
def bullet (m : Pile) : String := if m.top.frames.head? = some (.list true) then "1. " else "* "

def runReference (el : Node) (act : Pile → Pile) (m : Pile) : Pile :=
  let (label, m) := m.aside none false act
  match m.context.activeResolver with
  | none => m.write label
  | some r =>
    let target := el.attr "refid"
    let kind := el.attr "kindref"
    if kind = "compound" ∨ kind = "member" then
      match referenceTarget? r kind target with
      | some page => m.write (codeLink label page)
      | none => (m.report (.unresolvedReference kind target label)).write ("`" ++ label ++ "`")
    else (m.report (.unknownReferenceKind kind label)).write ("`" ++ label ++ "`")

/-- Writes an element on the top sheet; `act` writes its content. -/
def run (rule : Rule) (el : Node) (act : Pile → Pile) (index : Nat) (m : Pile) : Pile :=
  match rule with
  | literal text => m.write text
  | wrap before after => (act (m.write before)).write after
  | code before after => m.coded fun m => (act (m.write before)).write after
  | nothing => m
  | para => act (if index = 0 then m else (m.write "\n\n").write (spaces m.top.indent))
  | list numbered =>
    m.within (.list numbered) fun m => act (if index = 0 then m else m.write "\n")
  | item =>
    let start := if index = 0 then m else m.write "\n"
    ((start.write (spaces m.top.indent)).write (bullet m)).indented (bullet m).length act
  | parameters =>
    let title := parametersTitle (el.attr "kind")
    (act (m.write s!"\n### {title}\n")).write "\n\n"
  | listing =>
    let language := listingLanguage (el.attr "filename")
    m.coded fun m => (act (m.write s!"\n```{language}\n")).write "```\n"
  | verbatim =>
    m.coded fun m =>
      ((m.write "\n```\n").write (onChars (trim (· == '\n')) el.textContent)).write "\n```\n"
  | note =>
    let kind := el.attr "kind"
    match noteOpening? kind with
    | some opening => act (m.write opening)
    | none => act (m.report (.unsupportedNote kind))
  | formula => m.write (formulaText el.textContent)
  | subsection level =>
    m.within (.subsection level) fun m => act (if index = 0 then m else m.write "\n\n")
  | title =>
    let level := match m.top.frames.head? with
      | some (.subsection level) => level
      | _ => 0
    ((m.write (hashes level)).write " ").write el.strippedText
  | heading =>
    let level := headingLevel (el.attr "level" "0")
    act ((((m.on Output.dropSpace).on (Output.stopUnless (isCount level))).write
      (headingMarks level)).write " ")
  | link =>
    let (label, m) := m.aside m.top.resolver m.top.inCode act
    if m.top.inCode then m.write label
    else ((((m.write "[").write label).write "](").write (el.attr "url")).write ")"
  | reference => runReference el act m
  | row =>
    let (text, m) := m.aside m.top.resolver m.top.inCode act
    ((m.write "\n").write (onChars trimRow text)).write (rowDashes (el.elements "entry"))
  | cell =>
    let (text, m) := m.aside m.top.resolver m.top.inCode act
    (m.write (onChars escapeCell text)).write "|"

end Rule

/-! ## Along the tree -/

mutual

def Node.run (index : Nat) : Node → Pile → Pile
  | .text s, m => m.write (Node.textFragment m.context s)
  | .element tag attrs children, m =>
    match Rule.ofTag? tag with
    | some rule => rule.run (.element tag attrs children) (fun m => runAll 0 children m) index m
    | none => runAll 0 children (m.report (.unsupportedElement tag))

def runAll (index : Nat) : List Node → Pile → Pile
  | [], m => m
  | n :: ns, m => if n.isVisible then runAll (index + 1) ns (n.run index m) else runAll index ns m

end

/-! ## The same rendering -/

namespace Pile

variable {m : Pile} {f g : Output → Output} {act : Pile → Pile} {content : Rule.Content}

theorem on_id : (m.on fun out => out) = m := rfl

theorem on_on : (m.on f).on g = m.on fun out => g (f out) := rfl

theorem context_on : (m.on f).context = m.context := rfl

theorem indent_context (m : Pile) : m.context.indent = m.top.indent := rfl

theorem inCode_context (m : Pile) : m.context.inCode = m.top.inCode := rfl

theorem on_congr (h : f m.output = g m.output) : m.on f = m.on g := by
  rw [on, on, h]

theorem ite_on (c : Prop) [Decidable c] :
    (if c then m else m.on f) = m.on fun out => if c then out else f out := by
  split <;> rfl

/-- The act writes what content renders to in the context that it finds, and changes nothing
else. -/
def Writes (act : Pile → Pile) (content : Rule.Content) : Prop :=
  ∀ m, act m = m.on (content m.context)

theorem writes_write (s : String) : Writes (write s) fun _ out => out.write s := fun _ => rfl

section

variable (hact : Writes act content)
include hact

theorem Writes.between (before after : String) :
    Writes (fun m => (act (m.write before)).write after) fun cx out =>
      (content cx (out.write before)).write after := by
  intro m
  simp only [write, hact (m.on _), on_on, context_on]

theorem Writes.unlessFirst (index : Nat) (s : String) :
    Writes (fun m => act (if index = 0 then m else m.write s)) fun cx out =>
      content cx (if index = 0 then out else out.write s) := by
  intro m
  simp only [write, ite_on, hact (m.on _), on_on, context_on]

theorem within_eq (frame : Frame) :
    m.within frame act = m.on (content { m.context with frame }) := by
  rw [within, hact]
  rfl

theorem indented_eq (n : Nat) :
    m.indented n act = m.on (content { m.context with indent := m.context.indent + n }) := by
  have hindent : m.top.indent + n - n = m.top.indent := Nat.add_sub_cancel ..
  rw [indented, hact]
  simp only [on, hindent]
  rfl

theorem coded_eq : m.coded act = m.on (content { m.context with inCode := true }) := by
  rw [coded, hact]
  rfl

theorem aside_eq (cx : Context) : m.aside cx.resolver cx.inCode act =
    ((Rule.apart content cx m.output).1, m.on fun out => (Rule.apart content cx out).2) := by
  rw [aside, hact]
  rfl

theorem aside_context : m.aside m.top.resolver m.top.inCode act =
    ((Rule.apart content m.context m.output).1,
      m.on fun out => (Rule.apart content m.context out).2) := aside_eq hact m.context

end

end Pile

open Pile

namespace Rule

theorem bullet_eq (m : Pile) :
    bullet m = if m.context.frame = .list true then "1. " else "* " := by
  rw [bullet, context]
  cases m.top.frames with
  | nil => rfl
  | cons frame frames => by_cases h : frame = .list true <;> simp [h]

variable {content : Content} {act : Pile → Pile} (hact : Writes act content)
include hact

theorem runReference_eq (el : Node) (m : Pile) :
    runReference el act m = m.on (renderReference el content m.context) := by
  have haside : m.aside none false act =
      ((apart content {} m.output).1, m.on fun out => (apart content {} out).2) := aside_eq hact {}
  unfold runReference renderReference
  simp only [haside, context_on, write, report, on_on]
  cases m.context.activeResolver with
  | none => exact on_congr rfl
  | some r =>
    simp only
    split
    · cases referenceTarget? r (el.attr "kindref") (el.attr "refid") <;> exact on_congr rfl
    · exact on_congr rfl

theorem run_eq_render (rule : Rule) (el : Node) (index : Nat) (m : Pile) :
    rule.run el act index m = m.on fun out => rule.render el content m.context index out := by
  have hwrites : ∀ m, act m = m.on (content m.context) := hact
  cases rule with
  | literal | nothing | wrap | para | parameters | formula | heading =>
    simp only [run, render, hwrites, write, on_id, on_on, context_on, ite_on, indent_context]
  | code | listing =>
    simp only [run, render]
    exact coded_eq (hact.between _ _)
  | verbatim =>
    have hwrite := writes_write (onChars (trim (· == '\n')) el.textContent)
    simp only [run, render, coded_eq (hwrite.between "\n```\n" "\n```\n")]
  | list | subsection =>
    simp only [run, render]
    exact within_eq (hact.unlessFirst index _) _
  | item =>
    simp only [run, render, indented_eq hact, write, on_on, context_on, ite_on, indent_context,
      bullet_eq]
  | note =>
    simp only [run, render]
    cases noteOpening? (el.attr "kind") <;>
      simp only [hwrites, write, report, on_on, context_on]
  | title =>
    have hframe : m.context.frame = m.top.frames.head?.getD .page := rfl
    simp only [run, render, write, on_on, hframe]
    cases m.top.frames.head? with
    | none => simp only [Option.getD_none]
    | some frame => cases frame <;> simp only [Option.getD_some]
  | reference =>
    simp only [run, render]
    exact runReference_eq hact el m
  | link =>
    have hcode {f : Output → Output} : (m.on f).top.inCode = m.top.inCode := rfl
    simp only [run, render, aside_context hact, inCode_context, write, on_on, hcode]
    by_cases hin : m.top.inCode = true
    · rw [if_pos hin]
      exact on_congr (if_pos hin).symm
    · rw [if_neg hin]
      exact on_congr (if_neg hin).symm
  | row | cell =>
    simp only [run, render, aside_context hact, write, on_on]
    exact on_congr rfl

end Rule

mutual

/-- Writing a node on the top sheet is rendering it in the context that stands there. -/
theorem Node.run_eq_render (index : Nat) :
    ∀ (n : Node) (m : Pile), n.run index m = m.on fun out => n.render m.context index out
  | .text s, m => by
    simp only [Node.run, Node.render, Pile.write]
  | .element tag attrs children, m => by
    simp only [Node.run, Node.render]
    cases Rule.ofTag? tag with
    | some rule => exact rule.run_eq_render (fun m => runAll_eq_renderAll 0 children m) _ _ _
    | none => exact runAll_eq_renderAll 0 children _

theorem runAll_eq_renderAll (index : Nat) :
    ∀ (ns : List Node) (m : Pile),
      runAll index ns m = m.on fun out => renderAll m.context index ns out
  | [], m => by
    simp only [runAll, renderAll, on_id]
  | n :: ns, m => by
    simp only [runAll, renderAll]
    split
    · rw [n.run_eq_render, runAll_eq_renderAll (index + 1) ns]
      rfl
    · exact runAll_eq_renderAll index ns m

end

end DoxPages
